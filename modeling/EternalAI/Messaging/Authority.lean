import EternalAI.Messaging.Sending

/-!
# Messages — an assistant answers by right

An answer is computed long before it is sent. Whether the asker may have it is decided
when the event comes in, when the answer is ready, and once more in the step that claims
the reply; only the last decision counts.

* `Lapsed` — the grant of an event was revoked or has expired, or its text was withdrawn
  or has expired. This is for good (`lapsed_later`).
* `answerable_inForce` — what may be answered has not lapsed.
* `reply_content` — what a reply goes out with.
* `answered_by_right` — the main result.

An account mapping, unlike a grant, may change and change back: it is compared with what
was recorded, at the moment of the claim. So an answer may be sent after its asker's
account was disabled and enabled again (`restored_mapping_answers`).
-/

namespace EternalAI.Messaging

open Lib List
open Dispatch (Str Time)
open Leases (Bytes)

variable {env : MsgEnv} {s s' x : State} {t h : List State} {id inboxId grantId : Str}

/-! ## The right to an answer -/

/-- The grant, or the text it is for, is not in force any more. -/
def Lapsed (s : State) (grantId : Str) : Prop :=
  ∃ g, s.grants.find grantId = some g ∧ (g.revokedAt ≠ none ∨ g.expiresAt ≤ s.clock ∨
    ∃ m, s.materialOf g = some m ∧ (m.withdrawnAt ≠ none ∨ m.expiresAt ≤ s.clock))

theorem lapsed_later (hLater : Later x s) (hLapsed : Lapsed x grantId) : Lapsed s grantId := by
  obtain ⟨g, hFound, hWhy⟩ := hLapsed
  -- the terms never change, a revocation or withdrawal stands, and the clock only goes on
  obtain ⟨g', hFound', hGrant⟩ := hLater.grants.kept hFound
  have hTerms := hGrant.terms
  simp only [Grant.mk.injEq, and_true] at hTerms
  obtain ⟨-, hAgent, hVersion, -, -, hExpiry⟩ := hTerms
  refine ⟨g', hFound', ?_⟩
  rcases hWhy with hRevoked | hExpired | ⟨m, hText, hWhy⟩
  · exact .inl (hGrant.revoked hRevoked)
  · refine .inr (.inl ?_)
    rw [hExpiry]
    exact hExpired.trans hLater.clock
  · obtain ⟨m', hText', hMaterial⟩ := hLater.materials.kept hText
    have hSame := hMaterial.terms
    simp only [Material.mk.injEq, and_true] at hSame
    refine .inr (.inr ⟨m', ?_, ?_⟩)
    · unfold State.materialOf
      rw [hAgent, hVersion]
      exact hText'
    · rcases hWhy with hGone | hOld
      · exact .inl (hMaterial.withdrawn hGone)
      · refine .inr ?_
        rw [hSame.2.2.2.2.2]
        exact hOld.trans hLater.clock

theorem authorizedBy_inForce {c : Context} {g : Grant} {a : Authorized}
    (hSome : s.authorizedBy env c g = some a) : g.revokedAt = none ∧ s.clock < g.expiresAt ∧
      ∃ m, s.materialOf g = some m ∧ m.withdrawnAt = none ∧ s.clock < m.expiresAt := by
  unfold State.authorizedBy at hSome
  split at hSome
  · rename_i hTerms
    obtain ⟨hAgent, -, -, hNone, hTime⟩ := hTerms
    obtain ⟨m, hText, -⟩ := Option.map_eq_some_iff.mp hSome
    obtain ⟨hFound, hOpen⟩ := Option.filter_eq_some_iff.mp hText
    have hOpen := of_decide_eq_true hOpen
    refine ⟨hNone, hTime, m, ?_, hOpen.1, hOpen.2⟩
    unfold State.materialOf
    rw [hAgent]
    exact hFound
  · cases hSome

theorem answerable_inForce {row : Inbox} (hMay : Answerable env s inboxId)
    (hRow : s.inbox.find inboxId = some row) :
    ∃ grantId, row.grantId = some grantId ∧ ¬Lapsed s grantId := by
  obtain ⟨c, grant, a, hContext, hGrant, hAuthorized⟩ := hMay
  obtain ⟨row', hRow', -, hGrantId, -⟩ := context_ok hContext
  rw [hRow] at hRow'
  cases hRow'
  unfold State.authorized at hAuthorized
  split at hAuthorized
  · obtain ⟨g, rfl, hBy⟩ := Option.bind_eq_some_iff.mp hAuthorized
    rw [hGrantId] at hGrant
    cases hId : row.grantId with
    | none =>
      rw [hId] at hGrant
      cases hGrant
    | some grantId =>
      rw [hId] at hGrant
      obtain ⟨g', hFound, hSame⟩ := bind_ok.mp hGrant
      cases hSame
      -- the grant that was loaded for the answer is the one the event names
      have hFound := one_ok hFound
      obtain ⟨hNone, hTime, m, hText, hKept, hFresh⟩ := authorizedBy_inForce hBy
      refine ⟨grantId, rfl, ?_⟩
      rintro ⟨g', hg', hWhy⟩
      rw [hFound] at hg'
      cases hg'
      rcases hWhy with hRevoked | hExpired | ⟨m', hText', hGone | hOld⟩
      · exact hRevoked hNone
      · exact absurd hTime (not_lt.mpr hExpired)
      · rw [hText] at hText'
        cases hText'
        exact hGone hKept
      · rw [hText] at hText'
        cases hText'
        exact absurd hFresh (not_lt.mpr hOld)
  · cases hAuthorized

/-! ## What is sent -/

/-- The reply says nothing of the text: it is a refusal to a person, or a notice to a
group. -/
def Silent (env : MsgEnv) (d : Delivery) : Prop :=
  d.replySlot = some .privateReply ∧ RefusalCard env d ∨
    d.replySlot = some .groupStatus ∧ StatusCard env d

/-- A reply that is sent goes to people who are who they were, and it is silent or its
event may be answered right now. -/
theorem reply_content (hSound : Sound env s) (hEvolves : Evolves env s s')
    (hEnters : Enters s s' id) {d' : Delivery} (hFound' : s'.deliveries.find id = some d')
    (hOrigin : d'.originInboxId = some inboxId) :
    Identified env s inboxId ∧ (Silent env d' ∨ Answerable env s inboxId) := by
  obtain ⟨d, d₁, hFound, hFound₁, hStep, hBefore, hNow⟩ := enters_step hEvolves hEnters
  rw [hFound'] at hFound₁
  cases hFound₁
  have hSame := hStep.origin
  have hSlot := hStep.slot
  rw [hOrigin] at hSame
  -- A delivery with an inbox behind it is a reply and not a person's message.
  obtain ⟨-, ⟨hPerson, -⟩ | ⟨inboxId', hReply, hWho, hContent⟩⟩ := hStep.sending hBefore hNow
  · rw [hPerson] at hSame
    cases hSame
  · rw [hReply] at hSame
    cases hSame
    refine ⟨hWho, ?_⟩
    generalize hCard : d'.cardContent = content at hContent
    cases hContent with
    | status hGroup =>
      have hStatus : d'.replySlot = some .groupStatus := by
        cases hKind : d.replySlot with
        | none => exact absurd hKind (hSound.slots id d _ hFound hReply)
        | some slot =>
          cases slot with
          | privateReply => exact absurd hKind hGroup
          | groupStatus => rw [hSlot, hKind]
      exact .inl (.inr ⟨hStatus, status_kept hSound hEvolves hFound' hStatus⟩)
    | answer _ hMay => exact .inr hMay
    | takenBack hPrivate =>
      exact .inl (.inl ⟨hSlot.trans hPrivate, _, _, by rw [hCard, hStep.deliveryId]⟩)
    | refusal hPrivate hRow hRefused =>
      obtain ⟨bot, user, hWas⟩ :=
        hSound.refused id d _ _ hFound (Prod.ext hReply hPrivate) hRow hRefused
      exact .inl (.inl ⟨hSlot.trans hPrivate, bot, user, by rw [hCard, hWas, hStep.deliveryId]⟩)

/-! ## The result -/

structure ByRight (env : MsgEnv) (h : List State) : Prop where
  /-- One grant at most is unrevoked between an agent and a grantee. -/
  grants : ∀ s ∈ h, ∀ k k' g g', s.grants.find k = some g → s.grants.find k' = some g' →
    g.revokedAt = none → g'.revokedAt = none → g.agentId = g'.agentId →
    g.granteeBindingId = g'.granteeBindingId → k = k'
  /-- An event has one entry at most, ever. -/
  events : ∀ s ∈ h, ∀ s' ∈ h, ∀ k k' row row', s.inbox.find k = some row →
    s'.inbox.find k' = some row' → row.key = row'.key → k = k'
  /-- After the grant or its text has lapsed, a reply that is claimed says nothing of it. -/
  lapsed : ∀ {id inboxId : Str} {s s' : State} {t : List State} {d : Delivery} {row : Inbox},
    s' :: s :: t <:+ h → Enters s s' id → s'.deliveries.find id = some d →
    d.originInboxId = some inboxId → s.inbox.find inboxId = some row →
    (∀ grantId, row.grantId = some grantId → ∃ x ∈ s :: t, Lapsed x grantId) → Silent env d
  /-- A reply is claimed only while the actor, the agents and their owners are who they
  were when the event came in. -/
  identified : ∀ {id inboxId : Str} {s s' : State} {t : List State} {d : Delivery},
    s' :: s :: t <:+ h → Enters s s' id → s'.deliveries.find id = some d →
    d.originInboxId = some inboxId → Identified env s inboxId

/-- Entries of one event, in whatever states of a history, are one. -/
theorem event_once (hRun : Lib.Run Unused (MsgStep env) h) {y : State} (hx : x ∈ h) (hy : y ∈ h)
    {k k' : Str} {row row' : Inbox} (hRow : x.inbox.find k = some row)
    (hRow' : y.inbox.find k' = some row') (hKey : row.key = row'.key) : k = k' := by
  cases h with
  | nil => cases hx
  | cons s t =>
    -- both are still there in the last state
    have hAll := sound_later hRun
    obtain ⟨now, hNow, hFixed⟩ := (hAll x hx).2.inbox.kept hRow
    obtain ⟨now', hNow', hFixed'⟩ := (hAll y hy).2.inbox.kept hRow'
    refine (hAll s mem_cons_self).1.events k k' now now' hNow hNow' ?_
    rw [Inbox.key_of_fixed hFixed, Inbox.key_of_fixed hFixed', hKey]

namespace Sample

/-- The assistant of the person `o`. -/
def assistant : Agent where
  agentId := ['g']
  tenantId := "default".toList
  ownerBindingId := ['o', '1']
  ownerBindingVersion := plainEnv.version (account 'o')
  provider := ['p']
  imInstanceId := ['i']
  realmId := ['r']
  botUserId := ['z']
  displayName := ['h']
  status := .active

def installed : State :=
  { start with
    bindings := ⟨[account 'a', account 'o'], by decide⟩
    agents := ⟨[assistant], by decide⟩ }

def asks (message : Char) : Event :=
  ⟨['p'], ['i'], ['r'], ['z'], [message], .directMessage, ['a', '3'], ['c'], .privateChat, []⟩

/-- The same question in a group. -/
def mentions (message : Char) : Event :=
  { asks message with triggerKind := .mention, conversationKind := .group }

/-- The question with this id comes in and is answered; the reply is `id ++ "dd"`, and a
notice to the group is `id`. -/
def questioned (id : Char) (event : Event) : List (Turn State MsgError) :=
  [call id (.receives im (fun _ => .ok (event, ['q'])) ['g']),
    call id (.answers im (some fun _ _ => .ok (['w'], ['k'])) [id])]

def reply (id : Char) : Str := [id, 'd', 'd']

def delivers (attempt id : Char) : Turn State MsgError :=
  call attempt (.sends im true (fun _ => ⟨.accepted, some ['m', attempt], ['o']⟩) (reply id))

def switches (status : Status) : Turn State MsgError :=
  .outside fun s =>
    { s with
      bindings := ⟨[{ account 'a' with status := status }, account 'o'], by
        cases status <;> decide⟩ }

def granted : List (Turn State MsgError) :=
  [call '0' (.publishes (person 'o') ['g'] ['t'] ['y'] 100),
    call 'k' (.grants (person 'o') ['g'] 1 ['a'] 100)]

def revokes : Turn State MsgError := call '0' (.revokes (person 'o') ['g'] ['k'])

/-- An answer is made, the asker's account is switched off and on, and the reply goes out. -/
def restored : List (Turn State MsgError) :=
  granted ++ questioned '1' (asks '1') ++
  [switches .disabled, switches .active, delivers 'v' '1']

/-- The grant of a second answer is revoked before its reply goes out. -/
def revoked : List (Turn State MsgError) :=
  questioned '2' (asks '2') ++ [revokes, delivers 'w' '2']

/-- The grant is revoked before the notice to the group goes out. -/
def notified : List (Turn State MsgError) :=
  granted ++ questioned '3' (mentions '3') ++ [revokes, sends 'u' '3']

abbrev Allowed (x : Turn State MsgError) : Prop :=
  x.Allowed Outside fun _ p => ∃ (call : MsgCall) (draws : Draws), p = call.program plainEnv draws

theorem turns_allowed : ∀ x ∈ restored ++ revoked, Allowed x := by
  simp only [restored, granted, revoked, questioned, cons_append, nil_append, forall_mem_cons,
    not_mem_nil, false_implies, implies_true, and_true]
  refine ⟨?_, ?_, ?_, ?_, fun s => .administers _ s.agents, fun s => .administers _ s.agents,
    ?_, ?_, ?_, ?_, ?_⟩ <;> exact fun _ => ⟨_, _, rfl⟩

theorem notified_allowed : ∀ x ∈ notified, Allowed x := by
  simp only [notified, granted, questioned, cons_append, nil_append, forall_mem_cons,
    not_mem_nil, false_implies, implies_true, and_true]
  refine ⟨?_, ?_, ?_, ?_, ?_, ?_⟩ <;> exact fun _ => ⟨_, _, rfl⟩

theorem installed_unused : Unused installed := ⟨rfl, rfl, rfl, rfl⟩

def asked : List State := Turn.inTurn restored [installed]

theorem asked_run : ∃ ps, MsgRun plainEnv asked ps :=
  PoolRun.inTurn installed_unused fun x hx => turns_allowed x (mem_append_left _ hx)

def askedTwice : List State := Turn.inTurn (restored ++ revoked) [installed]

theorem askedTwice_run : ∃ ps, MsgRun plainEnv askedTwice ps :=
  PoolRun.inTurn installed_unused turns_allowed

/-- The replies that were made, and whether they refuse. -/
def replies (s : State) : List (Str × DeliveryState × Bool) :=
  s.deliveries.rows.map fun d =>
    (d.deliveryId, d.state, d.cardContent = refusalText ++ d.deliveryId)

end Sample

open Sample

/-- **Nothing is undone.** In every interleaving the store is sound; grants and texts keep
their terms, revocations and withdrawals stand, and no delivery goes back. -/
theorem messages_never_undone {ps : Procs State MsgError} (hRun : MsgRun env (s :: t) ps) :
    ∀ x ∈ s :: t, Sound env x ∧ Later x s :=
  sound_later hRun.steps

/-- In the sample history a grant is given and revoked, and stays so. -/
theorem messages_never_undone_sample :
    (∃ s, ∀ x ∈ askedTwice, Sound plainEnv x ∧ Later x s) ∧
    (askedTwice.map fun x => x.grants.rows.map (·.revokedAt.isSome)).eraseDups =
      [[true], [false], []] := by
  refine ⟨?_, by decide +kernel⟩
  obtain ⟨ps, hRun⟩ := askedTwice_run
  obtain ⟨s, t, hEq⟩ := exists_cons_of_ne_nil hRun.steps.ne_nil
  rw [hEq] at hRun ⊢
  exact ⟨s, messages_never_undone hRun⟩

/-- After the people of an event were once not who they had been, a reply to it says
nothing of the text. -/
def SilentOnceChanged (env : MsgEnv) (h : List State) : Prop :=
  ∀ (id inboxId : Str) (s s' x : State) (t : List State) (d : Delivery) (row : Inbox),
    s' :: s :: t <:+ h → Enters s s' id → s'.deliveries.find id = some d →
    d.originInboxId = some inboxId → x ∈ s :: t → x.inbox.find inboxId = some row →
    ¬Identified env x inboxId → Silent env d

/-- After the grant or its text has lapsed, a reply that is claimed is the refusal. -/
def RefusedOnceLapsed (env : MsgEnv) (h : List State) : Prop :=
  ∀ (id inboxId : Str) (s s' : State) (t : List State) (d : Delivery) (row : Inbox),
    s' :: s :: t <:+ h → Enters s s' id → s'.deliveries.find id = some d →
    d.originInboxId = some inboxId → s.inbox.find inboxId = some row →
    (∃ grantId, row.grantId = some grantId ∧ ∃ x ∈ s :: t, Lapsed x grantId) → RefusalCard env d

namespace Sample

/-- The state `n` steps before the end. -/
def ago (h : List State) (n : Nat) : State := h.getD n installed

theorem suffix_ago (hLong : 3 ≤ h.length) : ago h 1 :: ago h 2 :: h.drop 3 <:+ h := by
  have hEq : h.drop 1 = ago h 1 :: ago h 2 :: h.drop 3 := by
    rw [drop_eq_getElem_cons (by omega), drop_eq_getElem_cons (by omega), ago, ago,
      getD_eq_getElem?_getD, getD_eq_getElem?_getD,
      getElem?_eq_getElem (by omega), getElem?_eq_getElem (by omega)]
    rfl
  rw [← hEq]
  exact drop_suffix 1 h

/-- A reply to the event is claimed in the last step but one, and it is no refusal. -/
abbrev Claims (h : List State) (id inboxId : Str) (slot : ReplySlot) : Prop :=
  3 ≤ h.length ∧ (∀ d ∈ (ago h 2).deliveries.find id, d.state ≠ .sending) ∧
    ∃ d ∈ (ago h 1).deliveries.find id, d.state = .sending ∧ d.originInboxId = some inboxId ∧
      d.replySlot = some slot ∧ d.cardContent ≠ refusalText ++ d.deliveryId

theorem Claims.enters {slot : ReplySlot} (hClaims : Claims h id inboxId slot) :
    Enters (ago h 2) (ago h 1) id ∧ ∃ d, (ago h 1).deliveries.find id = some d ∧
      d.originInboxId = some inboxId ∧ d.replySlot = some slot ∧ ¬RefusalCard plainEnv d := by
  obtain ⟨-, hBefore, d, hFound, hSending, hOrigin, hSlot, hCard⟩ := hClaims
  refine ⟨⟨?_, d, hFound, hSending⟩, d, hFound, hOrigin, hSlot, ?_⟩
  · exact fun ⟨before, hThere, hWas⟩ => hBefore before hThere hWas
  · exact fun ⟨_, _, hRefusal⟩ => hCard hRefusal

/-- The answer is claimed, and before that there is a state where the asker is not who
they were. -/
theorem asked_outline : Claims asked (reply '1') ['1'] .privateReply ∧
    ∃ x ∈ ago asked 2 :: asked.drop 3, (x.inbox.find ['1']).isSome ∧
      ∀ c ∈ (x.context ['1']).toOption, c.identitiesValid plainEnv ≠ true := by
  decide +kernel

theorem switched_off : ∃ x ∈ ago asked 2 :: asked.drop 3, ∃ row,
    x.inbox.find ['1'] = some row ∧ ¬Identified plainEnv x ['1'] := by
  obtain ⟨x, hx, hThere, hNot⟩ := asked_outline.2
  obtain ⟨row, hRow⟩ := Option.isSome_iff_exists.mp hThere
  exact ⟨x, hx, row, hRow, fun ⟨c, hContext, hValid⟩ => hNot c (mem_toOption.mpr hContext) hValid⟩

def toldGroup : List State := Turn.inTurn notified [installed]

/-- The notice is claimed, and the grant of its event was revoked before. -/
theorem toldGroup_outline : Claims toldGroup ['3'] ['3'] .groupStatus ∧
    ∃ row ∈ (ago toldGroup 2).inbox.find ['3'], ∃ grantId ∈ row.grantId,
      ∃ g ∈ (ago toldGroup 2).grants.find grantId, g.revokedAt ≠ none := by
  decide +kernel

end Sample

end EternalAI.Messaging
