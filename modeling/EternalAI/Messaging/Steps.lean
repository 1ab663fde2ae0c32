import EternalAI.Messaging.Moves

/-!
# Messages — every transaction is a step

One lemma for each transaction: where it commits, the state evolves. The programs of the
services then act by steps only, whatever happens between their transactions.

* `MsgRun.steps` — the states of an interleaving are a run of steps.
-/

namespace EternalAI.Messaging

open Lib List Safe
open Dispatch (Str Time)
open Leases (Bytes)

variable {env : MsgEnv} {s s' : State}

/-! ## Kinds of steps -/

theorem Evolves.still : Evolves env s s where
  clock := le_refl _
  deliveries := .refl fun _ => .stays
  inbox := .refl fun _ => .stays
  grants := .refl fun _ => .stays
  materials := .refl fun _ => .stays

variable {deliveries : Keyed Delivery.deliveryId} {jobs : Nat}

theorem Evolves.outbox (hDeliveries : s.deliveries.Evolves (DeliveryStep env s)
      (NewDelivery env s { s with deliveries := deliveries, jobs := jobs }) deliveries) :
    Evolves env s { s with deliveries := deliveries, jobs := jobs } where
  clock := le_refl _
  deliveries := hDeliveries
  inbox := .refl fun _ => .stays
  grants := .refl fun _ => .stays
  materials := .refl fun _ => .stays

variable {d : Delivery} {deliveryId : Str}

theorem Evolves.changed {f : Delivery → Delivery} (hFound : s.deliveries.find deliveryId = some d)
    (hStep : DeliveryStep env s d (f d))
    (hf : ∀ d, (f d).deliveryId = d.deliveryId := by exact fun _ => rfl) :
    Evolves env s { s.change deliveryId f hf with jobs := jobs } :=
  .outbox (.update f hf (fun _ => .stays) (forall_some hFound hStep))

theorem Evolves.inboxOnly {inbox : Keyed Inbox.inboxId}
    (hInbox : s.inbox.Evolves (InboxStep env { s with inbox := inbox, jobs := jobs })
      (NewInbox { s with inbox := inbox, jobs := jobs }) inbox) :
    Evolves env s { s with inbox := inbox, jobs := jobs } where
  clock := le_refl _
  deliveries := .refl fun _ => .stays
  inbox := hInbox
  grants := .refl fun _ => .stays
  materials := .refl fun _ => .stays

theorem Evolves.owners {grants : Keyed Grant.grantId} {materials : Keyed Material.key}
    (hGrants : s.grants.Evolves GrantStep (NewGrant { s with grants, materials }) grants)
    (hMaterials : s.materials.Evolves MaterialStep (fun _ => True) materials) :
    Evolves env s { s with grants, materials } :=
  ⟨le_refl _, .refl fun _ => .stays, .refl fun _ => .stays, hGrants, hMaterials⟩

theorem outside_evolves (hOut : Outside s s') : Evolves env s s' := by
  cases hOut with
  | ticks hLe =>
    exact ⟨hLe, .refl fun _ => .stays, .refl fun _ => .stays, .refl fun _ => .stays,
      .refl fun _ => .stays⟩
  | administers =>
    exact ⟨le_refl _, .refl fun _ => .stays, .refl fun _ => .stays, .refl fun _ => .stays,
      .refl fun _ => .stays⟩

/-- A transaction that makes a step, if it commits. -/
abbrev Commits {α : Type} (env : MsgEnv) (s : State) (x : Except MsgError (α × State)) : Prop :=
  Post x fun r => Evolves env s r.2

variable {e : MsgError}

theorem one_ok {α : Type} {found : Option α} {x : α} (hOk : one e found = .ok x) :
    found = some x := by
  cases found with
  | none => cases hOk
  | some y =>
    cases hOk
    rfl

/-! ## Deliveries of people -/

variable {digest : Bytes} {x : State} {result : DeliveryResult}

section People

variable {principal : Principal} {deliveryId : Str} {realm : Str × Str × Str} {b : Binding}

theorem initiator_ok (hOk : s.initiator principal realm = .ok b) :
    s.binding principal.tenantId principal.aiUserId realm = .ok (some b) := by
  simp only [State.initiator, bind_ok, ensure_ok, exists_const] at hOk
  obtain ⟨-, found, hFound, binding, hOne, -, hOk⟩ := hOk
  cases hOk
  rw [hFound, one_ok hOne]

theorem recipient_ok {tenant user : Str} (hOk : s.recipient env tenant user realm = .ok b) :
    s.binding tenant user realm = .ok (some b) := by
  obtain ⟨-, hOk⟩ := ensure_bind_ok.mp hOk
  obtain ⟨found, hFound, hOk⟩ := bind_ok.mp hOk
  rw [hFound, one_ok hOk]

variable {d : Delivery}

theorem prepare_evolves {record : Delivery} (hNew : ∀ s', NewDelivery env s s' record) :
    Commits env s (s.prepare record) := by
  unfold State.prepare
  split
  · refine .ensure fun _ => .ret ?_
    exact .still
  · refine .bind fun deliveries hInsert => .ret ?_
    exact .outbox (.insert (fun _ => .stays) hInsert (hNew _))

theorem initiatedBy_spec (hBy : d.initiatedBy principal = true) :
    d.originInboxId = none ∧ principal.tenantId = d.tenantId ∧
      principal.aiUserId = d.initiatorAiUserId := by
  obtain ⟨hPerson, hTenant, hUser⟩ := of_decide_eq_true hBy
  exact ⟨hPerson, hTenant.symm, hUser.symm⟩

theorem confirmFirst_evolves (hFound : s.deliveries.find deliveryId = some d)
    (hBy : d.initiatedBy principal = true) (hOpen : d.state ≠ .cancelled ∧ d.state ≠ .expired)
    (hNone : d.confirmedAt = none) : Commits env s (s.confirmFirst env principal d) := by
  obtain ⟨hPerson, hTenant, hUser⟩ := initiatedBy_spec hBy
  have hAt := Keyed.find_own hFound
  unfold State.confirmFirst
  split
  · -- too late: instead of being confirmed the delivery expires
    refine .ret ?_
    exact .changed hAt (.expires hPerson (.inl ⟨hNone, hOpen⟩))
  · refine .bind fun initiator hInitiator => .bind fun recipient hRecipient =>
      .ensure fun hDigest => .ensure fun hPrepared => .ret ?_
    have hSender := initiator_ok hInitiator
    rw [hTenant, hUser] at hSender
    have hCovers : Covers env s d initiator recipient :=
      ⟨hSender, recipient_ok hRecipient, hDigest⟩
    exact .changed hAt (.confirms (s.jobs + 1) hPerson hPrepared hCovers)

theorem confirm_evolves : Commits env s (s.confirm env principal deliveryId digest) := by
  refine .bind fun d hOne => .ensure fun hBy => .ensure fun _ => .ensure fun hOpen => ?_
  split
  · exact .ret .still
  · rename_i hNone
    exact confirmFirst_evolves (one_ok hOne) hBy hOpen (Option.not_isSome_iff_eq_none.mp hNone)

theorem cancel_evolves : Commits env s (s.cancel principal deliveryId) := by
  refine .bind fun d hOne => .ensure fun _ => .ret ?_
  split
  · exact .changed (one_ok hOne) (.cancels d.resultCode ‹_›)
  · exact .still

/-! ## Attempts -/

variable {attempt : Str}

theorem attempt_commits
    (hStep : Evolves env s (x.change d.deliveryId (Delivery.attemptedBy attempt) fun _ => rfl)) :
    Commits env s (x.attempt e d attempt) :=
  .ensure fun _ => .ret hStep

theorem covered_spec {initiator recipient : Option Binding}
    (hCovered : d.covered env initiator recipient = true) : ∃ a b, initiator = some a ∧
      recipient = some b ∧ some (env.confirmationDigest d a b) = d.confirmationSha256 := by
  unfold Delivery.covered at hCovered
  split at hCovered
  · exact ⟨_, _, rfl, rfl, (of_decide_eq_true hCovered).2.2⟩
  · cases hCovered

theorem claimReady_evolves (hFound : s.deliveries.find d.deliveryId = some d)
    (hReady : d.state = .ready) (hPerson : d.originInboxId = none) :
    Commits env s (s.claimReady env d attempt) := by
  unfold State.claimReady
  split
  · refine .ret ?_
    exact .changed hFound (.expires hPerson (.inr hReady))
  · rename_i hTime
    refine .bind fun initiator hInitiator => .bind fun recipient hRecipient => ?_
    split
    · rename_i hCovered
      obtain ⟨a, b, hA, hB, hDigest⟩ := covered_spec hCovered
      rw [hA] at hInitiator
      rw [hB] at hRecipient
      exact attempt_commits (.changed hFound
        (.sends attempt hPerson hReady (Bool.not_eq_true _ ▸ hTime)
          ⟨hInitiator, hRecipient, hDigest⟩))
    · refine .ret ?_
      exact .changed hFound (.cancels _ (.inr hReady))

theorem claim_evolves : Commits env s (s.claim env deliveryId attempt) := by
  unfold State.claim
  split
  · exact .ret .still
  · rename_i d hFound
    split
    · rename_i hReady
      exact claimReady_evolves (Keyed.find_own hFound) hReady.1 hReady.2
    · exact .ret .still

theorem finish_evolves : Commits env s (s.finish deliveryId attempt result) := by
  unfold State.finish
  split
  · exact .ret .still
  · rename_i d hFound
    split
    · rename_i hPending
      refine .ensure fun _ => .ret ?_
      exact .changed hFound (.finishes result hPending.2)
    · exact .ret .still

theorem uncertain_evolves : Commits env s (s.uncertain deliveryId) := by
  unfold State.uncertain
  split
  · exact .ret .still
  · rename_i d hFound
    split
    · rename_i hSending
      refine .ret ?_
      exact .changed hFound (.givesUp hSending)
    · split <;> exact .ret .still

end People

/-! ## Recovery -/

/-- A state in the middle of a recovery that began at `s`. -/
structure Recovering (env : MsgEnv) (s x : State) : Prop where
  only : x = { s with deliveries := x.deliveries, jobs := x.jobs }
  rows : s.deliveries.Evolves (DeliveryStep env s) (fun _ => False) x.deliveries

theorem recoverRow_recovering (todo : Nat → Bool) (hMid : Recovering env s x)
    (hFound : s.deliveries.find d.deliveryId = some d) (hReady : d.state = .ready)
    (hSame : x.deliveries.find d.deliveryId = s.deliveries.find d.deliveryId) :
    Recovering env s (x.recoverRow todo d) ∧ ∀ k ≠ d.deliveryId,
      (x.recoverRow todo d).deliveries.find k = x.deliveries.find k := by
  have hRow : ∀ (f : Delivery → Delivery) (hf : ∀ d, (f d).deliveryId = d.deliveryId) (jobs : Nat),
      DeliveryStep env s d (f d) →
      Recovering env s { x.change d.deliveryId f hf with jobs := jobs } ∧ ∀ k ≠ d.deliveryId,
        (x.change d.deliveryId f hf).deliveries.find k = x.deliveries.find k := by
    intro f hf jobs hStep
    have hRows := hMid.rows.then_update f hf hSame (forall_some hFound hStep)
    refine ⟨⟨by rw [hMid.only]; rfl, hRows⟩, fun k hk => ?_⟩
    rw [State.change, Keyed.find_update, if_neg hk]
  unfold State.recoverRow
  split
  · exact hRow (Delivery.withState .expired) (fun _ => rfl) x.jobs
      (.expires (‹_ ∧ _›).1 (.inr hReady))
  · split
    · exact ⟨hMid, fun _ _ => rfl⟩
    · exact hRow (fun d => { d with queueJobId := some (x.jobs + 1) }) (fun _ => rfl) (x.jobs + 1)
        (.requeued (x.jobs + 1) hReady)

theorem recover_rows (todo : Nat → Bool) {rows : List Delivery}
    (hNodup : (rows.map Delivery.deliveryId).Nodup)
    (hRows : ∀ d ∈ rows, s.deliveries.find d.deliveryId = some d ∧ d.state = .ready) :
    ∀ x, Recovering env s x →
      (∀ d ∈ rows, x.deliveries.find d.deliveryId = s.deliveries.find d.deliveryId) →
      Recovering env s (rows.foldl (State.recoverRow todo) x) := by
  induction rows with
  | nil => exact fun x hMid _ => hMid
  | cons d rest ih =>
    intro x hMid hSame
    rw [map_cons, nodup_cons] at hNodup
    obtain ⟨hFound, hReady⟩ := hRows d mem_cons_self
    obtain ⟨hNext, hOthers⟩ :=
      recoverRow_recovering todo hMid hFound hReady (hSame d mem_cons_self)
    refine ih hNodup.2 (fun y hy => hRows y (mem_cons_of_mem _ hy)) _ hNext fun y hy => ?_
    -- no later row has the id of this one
    have hApart : y.deliveryId ≠ d.deliveryId := fun hEq =>
      hNodup.1 (hEq ▸ mem_map_of_mem hy)
    rw [hOthers _ hApart]
    exact hSame y (mem_cons_of_mem _ hy)

variable {locked : Str → Bool} {todo : Nat → Bool}

theorem recoverReady_evolves : Commits env s (s.recoverReady locked todo) := by
  refine .ret ?_
  have hStart : Recovering env s s := ⟨rfl, .refl fun _ => .stays⟩
  -- the rows are those of the query, each of them touched once
  have hNodup : ((s.deliveries.rows.filter fun d => d.state = .ready ∧ !locked d.deliveryId).map
      Delivery.deliveryId).Nodup :=
    List.Nodup.sublist (filter_sublist.map _) s.deliveries.nodup
  have hEnd := recover_rows todo hNodup (fun d hd => ?_) s hStart fun _ _ => rfl
  · rw [hEnd.only]
    exact .outbox (hEnd.rows.imp (fun _ _ _ _ hStep => hStep) fun _ hFalse => hFalse.elim)
  · obtain ⟨hMem, hReady⟩ := mem_filter.mp hd
    exact ⟨Keyed.find_key hMem, (of_decide_eq_true hReady).1⟩

/-! ## What owners do -/

section Owners

variable {principal : Principal} {agentId : Str} {expiresAt : Time}

theorem publish_evolves {title body : Str} :
    Commits env s (s.publish env principal agentId title body expiresAt) := by
  refine .bind fun _ _ => .ensure fun _ => .bind fun materials hInsert => .ret ?_
  exact .owners (.refl fun _ => .stays) (.insert (fun _ => .stays) hInsert trivial)

variable {granteeBindingId : Str} {now : Time}

theorem Grant.replaced_step (g : Grant) :
    GrantStep g (g.replaced agentId granteeBindingId now) := by
  unfold Grant.replaced
  split
  · exact .revoked now
  · exact .stays

/-- A grant that a new one does not take the place of is revoked or for someone else. -/
theorem Grant.replaced_unrevoked {g : Grant}
    (hNone : (g.replaced agentId granteeBindingId now).revokedAt = none)
    (hAgent : (g.replaced agentId granteeBindingId now).agentId = agentId) :
    (g.replaced agentId granteeBindingId now).granteeBindingId ≠ granteeBindingId := by
  unfold Grant.replaced at hNone hAgent ⊢
  split at hNone
  · cases hNone
  · rename_i hKeep
    rw [if_neg hKeep] at hAgent ⊢
    exact fun hGrantee => hKeep ⟨hAgent, hGrantee, hNone⟩

variable {grantId : Str}

theorem grant_evolves {materialVersion : Nat} {grantee : Str} :
    Commits env s (s.grant env principal agentId materialVersion grantee expiresAt grantId) := by
  refine .bind fun agent _ => .bind fun material _ => .ensure fun _ => .bind fun found _ =>
    .bind fun binding _ => .bind fun grants hInsert => .ret ?_
  refine .owners ?_ (.refl fun _ => .stays)
  -- the grants that are in its way are revoked first, so that the new one is alone
  refine Keyed.Evolves.then_insert (.map _ Grant.grantId_replaced fun _ g _ => g.replaced_step)
    hInsert fun k g hFound hNone hAgent hGrantee => ?_
  rw [(Keyed.find_insert hInsert).2 k] at hFound
  split at hFound
  · assumption
  · rw [Keyed.find_map] at hFound
    obtain ⟨y, -, rfl⟩ := Option.map_eq_some_iff.mp hFound
    exact absurd hGrantee (Grant.replaced_unrevoked hNone hAgent)

theorem revoke_evolves : Commits env s (s.revoke env principal agentId grantId) := by
  refine .bind fun _ _ => .bind fun grant _ => .ensure fun _ => .ret ?_
  exact .owners (.update (Grant.revoked s.clock) (fun _ => rfl) (fun _ => .stays)
    fun _ _ => .revoked _) (.refl fun _ => .stays)

theorem withdraw_evolves {version : Nat} :
    Commits env s (s.withdraw env principal agentId version) := by
  refine .bind fun _ _ => .bind fun _ _ => .ret ?_
  exact .owners (.refl fun _ => .stays) (.update (Material.withdrawn s.clock) (fun _ => rfl)
    (fun _ => .stays) fun _ _ => .withdrawn _)

end Owners

/-! ## Events -/

variable {inboxId : Str} {agent : Agent} {event : Event} {delegate : Option Str} {actor : Binding}

theorem insertInbox_evolves {grantId : Option Str} :
    Commits env s (s.insertInbox env inboxId agent event actor delegate grantId) := by
  refine .ensure fun hFree => .bind fun inbox hInsert => .ret ?_
  refine .inboxOnly (.insert (fun _ => .stays) hInsert ⟨rfl, fun k row hFound hKey => ?_⟩)
  rw [(Keyed.find_insert hInsert).2 k] at hFound
  split at hFound
  · assumption
  · have hMem := (Keyed.find_some.mp hFound).1
    exact absurd hKey (of_decide_eq_true (all_eq_true.mp hFree row hMem))

variable {c : Context}

theorem context_ok (hOk : s.context inboxId = .ok c) :
    ∃ row, s.inbox.find inboxId = some row ∧ c.inboxId = inboxId ∧ c.grantId = row.grantId ∧
      c.state = row.state := by
  simp only [State.context, bind_ok] at hOk
  obtain ⟨row, hRow, agent, -, actor, -, owner, -, delegation, -, hOk⟩ := hOk
  cases hOk
  exact ⟨row, one_ok hRow, rfl, rfl, rfl⟩

variable {row : Inbox}

theorem startInbox_evolves (hFound : s.inbox.find row.inboxId = some row)
    (hQueued : row.state = .queued) : Commits env s (s.startInbox env row) := by
  have hNot : row.state ≠ .refused := by
    rw [hQueued]
    decide
  refine .bind fun c _ => ?_
  split
  · refine .ret ?_
    exact .inboxOnly (.update (Inbox.moved .running row.resultCode) (fun _ => rfl)
      (fun _ => .stays) (forall_some hFound (.moves .running _ hNot (by decide))))
  · refine .ret ?_
    exact .inboxOnly (.update_update (Inbox.moved .running row.resultCode)
      (Inbox.moved .failed (some "mapping_changed".toList)) (fun _ => rfl) (fun _ => rfl)
      (fun _ => .stays) (forall_some hFound (.moves .failed _ hNot (by decide))))

theorem claimInbox_evolves : Commits env s (s.claimInbox env inboxId) := by
  unfold State.claimInbox
  split
  · exact .ret .still
  · rename_i row hFound
    split
    · exact startInbox_evolves (Keyed.find_own hFound) ‹_›
    · exact .ret .still

variable {code : Str}

theorem Inbox.failedWith_step (row : Inbox) : InboxStep env s' row (row.failedWith code) := by
  unfold Inbox.failedWith
  split
  · rename_i hOpen
    refine .moves .failed _ ?_ (by decide)
    rcases hOpen with hOpen | hOpen <;> rw [hOpen] <;> decide
  · exact .stays

theorem fail_evolves : Commits env s (s.fail inboxId code) := by
  refine .ret ?_
  exact .inboxOnly (.update _ Inbox.inboxId_failedWith (fun _ => .stays)
    fun row _ => row.failedWith_step)

theorem maintainInbox_evolves {dead : Nat → Bool} :
    Commits env s (s.maintainInbox dead) := by
  refine .ret ?_
  refine .inboxOnly (.map _ _ fun _ row _ => ?_)
  split
  · exact row.failedWith_step
  · exact .stays

/-! ## Replies -/

section Replies

variable {c current : Context} {deliveryId key : Str} {message : Message} {slot : ReplySlot}

variable {grant : Option Grant}

theorem locked_ok (hOk : s.locked c = .ok (current, grant)) :
    s.grantOf c.grantId = .ok grant ∧ s.context c.inboxId = .ok current := by
  simp only [State.locked, bind_ok] at hOk
  obtain ⟨g, hGrant, c', hContext, hOk⟩ := hOk
  cases hOk
  exact ⟨hGrant, hContext⟩

theorem enqueue_ok (hOk : s.enqueue env c deliveryId key message slot = .ok s') :
    ∃ deliveries, s.deliveries.insert (newReply env deliveryId key c message slot (s.jobs + 1))
        MsgError.agentUnavailable = .ok deliveries ∧
      (∀ k d, deliveries.find k = some d → d.reply = (some c.inboxId, some slot) →
        d = newReply env deliveryId key c message slot (s.jobs + 1)) ∧
      s' = { s with deliveries := deliveries, jobs := s.jobs + 1 } := by
  obtain ⟨hFree, hOk⟩ := ensure_bind_ok.mp hOk
  obtain ⟨deliveries, hInsert, hOk⟩ := bind_ok.mp hOk
  cases hOk
  refine ⟨deliveries, hInsert, fun k d hFound hReply => ?_, rfl⟩
  rw [(Keyed.find_insert hInsert).2 k] at hFound
  split at hFound
  · exact (Option.some.inj hFound).symm
  · have hMem := (Keyed.find_some.mp hFound).1
    exact absurd hReply (of_decide_eq_true (all_eq_true.mp hFree d hMem)).2

variable {job : Nat}

theorem newReply_new (hRow : s.inbox.find c.inboxId = some row) (hRunning : row.state = .running)
    (hStatus : slot = .groupStatus →
      StatusCard env (newReply env deliveryId key c message slot job))
    (hOnly : ∀ k d, s'.deliveries.find k = some d → d.reply = (some c.inboxId, some slot) →
      d = newReply env deliveryId key c message slot job) :
    NewDelivery env s s' (newReply env deliveryId key c message slot job) := by
  refine .reply rfl rfl hRow hRunning hStatus fun k d hFound hReply => ?_
  rw [← lookup_key hFound, hOnly k d hFound hReply]

theorem enqueueStatus_evolves {bot conversation : Str} :
    Commits env s (s.enqueueStatus env c deliveryId key
      (env.groupStatus deliveryId bot conversation delegate)) := by
  refine .bind fun ⟨current, grant⟩ hLocked => ?_
  obtain ⟨-, hContext⟩ := locked_ok hLocked
  obtain ⟨row, hRow, hId, -, hState⟩ := context_ok hContext
  simp only
  split
  · rename_i hRunning
    refine .bind fun s₁ hEnqueue => .ret ?_
    obtain ⟨deliveries, hInsert, hOnly, rfl⟩ := enqueue_ok hEnqueue
    rw [← hId] at hRow
    have hStatus : StatusCard env (newReply env deliveryId key current
        (env.groupStatus deliveryId bot conversation delegate) .groupStatus (s.jobs + 1)) :=
      ⟨bot, conversation, delegate, rfl⟩
    exact .outbox (.insert (fun _ => .stays) hInsert
      (newReply_new hRow (hState.symm.trans hRunning.1) (fun _ => hStatus) hOnly))
  · exact .ret .still

/-- An event is answered: its reply is inserted and the event is completed or refused. -/
theorem Evolves.answered {state : InboxState} {code : Option Str}
    (hRow : s.inbox.find current.inboxId = some row) (hRunning : row.state = .running)
    (hInsert : s.deliveries.insert (newReply env deliveryId key current message .privateReply job)
      MsgError.agentUnavailable = .ok deliveries) (hOnly : ∀ k d, deliveries.find k = some d →
      d.reply = (some current.inboxId, some .privateReply) →
      d = newReply env deliveryId key current message .privateReply job)
    (hRefusal : state = .refused →
      RefusalCard env (newReply env deliveryId key current message .privateReply job)) :
    Evolves env s (State.setInbox { s with deliveries := deliveries, jobs := job }
      current.inboxId state code) where
  clock := le_refl _
  deliveries := .insert (fun _ => .stays) hInsert
    (newReply_new hRow hRunning nofun hOnly)
  grants := .refl fun _ => .stays
  materials := .refl fun _ => .stays
  inbox := by
    refine .update (Inbox.moved state code) (fun _ => rfl) (fun _ => .stays)
      (forall_some hRow ?_)
    by_cases hRefused : state = .refused
    · subst hRefused
      refine .refuses code fun k d hFound hReply => ?_
      rw [lookup_key hRow] at hReply
      rw [hOnly k d hFound hReply]
      exact hRefusal rfl
    · refine .moves state code ?_ hRefused
      rw [hRunning]
      decide

variable {answer : Option Message}

theorem conclude_evolves (hRow : s.inbox.find current.inboxId = some row)
    (hRunning : row.state = .running) :
    Commits env s (s.conclude env current grant deliveryId key answer (env.refusal c deliveryId)
      code) := by
  refine .bind fun _ _ => .bind fun s₁ hEnqueue => ?_
  obtain ⟨deliveries, hInsert, hOnly, rfl⟩ := enqueue_ok hEnqueue
  refine .ret ?_
  cases hAllowed : chosen answer (s.authorized env current grant) with
  | some message =>
    exact .answered hRow hRunning hInsert hOnly fun hRefused => nomatch hRefused
  | none =>
    rw [hAllowed] at hInsert hOnly
    exact .answered hRow hRunning hInsert hOnly fun _ => ⟨_, _, rfl⟩

theorem complete_evolves :
    Commits env s (s.complete env c deliveryId key answer (env.refusal c deliveryId) code) := by
  refine .bind fun ⟨current, grant⟩ hLocked => ?_
  obtain ⟨-, hContext⟩ := locked_ok hLocked
  obtain ⟨row, hRow, hId, -, hState⟩ := context_ok hContext
  rw [← hId] at hRow
  simp only
  split
  · rename_i hRunning
    have hWas : row.state = .running := hState.symm.trans hRunning
    split
    · exact conclude_evolves hRow hWas
    · refine .ret ?_
      refine .inboxOnly (.update (Inbox.moved .failed (some "mapping_changed".toList))
        (fun _ => rfl) (fun _ => .stays) (forall_some hRow (.moves .failed _ ?_ (by decide))))
      rw [hWas]
      decide
  · exact .ret .still

variable {attempt : Str}

theorem Evolves.replied (hFound : s.deliveries.find d.deliveryId = some d)
    (hReady : d.state = .ready) (hOrigin : d.originInboxId = some inboxId)
    (hWho : Identified env s inboxId) (hContent : Content env s inboxId d d.cardContent) :
    Evolves env s (s.change d.deliveryId (Delivery.attemptedBy attempt) fun _ => rfl) :=
  .changed hFound (.replies attempt hOrigin hReady hWho hContent)

theorem takenBack_find {refusal : Message} (k : Str) :
    ((s.takeBack inboxId deliveryId refusal).change deliveryId (Delivery.attemptedBy attempt)
      fun _ => rfl).deliveries.find k = if k = deliveryId then (s.deliveries.find k).map fun d =>
        (d.withContent refusal.cardContent).attemptedBy attempt else s.deliveries.find k :=
  Keyed.find_update_update (Delivery.withContent refusal.cardContent) (Delivery.attemptedBy attempt)
    (fun _ => rfl) (fun _ => rfl) k

theorem Evolves.tookBack (hSound : Sound env s) (hFound : s.deliveries.find d.deliveryId = some d)
    (hReady : d.state = .ready) (hReply : d.reply = (some row.inboxId, some .privateReply))
    (hRow : s.inbox.find row.inboxId = some row) (hWho : Identified env s row.inboxId) :
    Evolves env s ((s.takeBack row.inboxId d.deliveryId (env.refusal c d.deliveryId)).change
      d.deliveryId (Delivery.attemptedBy attempt) fun _ => rfl) where
  clock := le_refl _
  deliveries := by
    refine .update_update (Delivery.withContent (env.refusal c d.deliveryId).cardContent)
      (Delivery.attemptedBy attempt) (fun _ => rfl) (fun _ => rfl) (fun _ => .stays)
      (forall_some hFound ?_)
    exact .replies attempt (congrArg Prod.fst hReply) hReady hWho
      (.takenBack (congrArg Prod.snd hReply))
  grants := .refl fun _ => .stays
  materials := .refl fun _ => .stays
  inbox := by
    refine .update (Inbox.moved .refused (some "authorization_unavailable".toList)) (fun _ => rfl)
      (fun _ => .stays) (forall_some hRow (.refuses _ fun k x hx hSame => ?_))
    -- the reply that was changed is the only one of the event
    rw [takenBack_find] at hx
    split at hx
    · subst k
      rw [hFound] at hx
      cases hx
      exact ⟨_, _, rfl⟩
    · exact absurd (hSound.replies _ _ d x row.inboxId hFound hx (congrArg Prod.fst hReply)
        (hSame.trans hReply.symm)).symm ‹_›

/-- The event of the context that was read earlier has the grant it had. -/
def Known (s : State) (c : Context) : Prop :=
  ∃ row, s.inbox.find c.inboxId = some row ∧ row.grantId = c.grantId

theorem sendReply_evolves (hSound : Sound env s) (hContext : s.context c.inboxId = .ok current)
    (hGrant : s.grantOf current.grantId = .ok grant)
    (hFound : s.deliveries.find d.deliveryId = some d) (hReady : d.state = .ready)
    (hOrigin : d.originInboxId = some c.inboxId) (hValid : current.identitiesValid env = true) :
    Commits env s (s.sendReply env current grant d (env.refusal c d.deliveryId) attempt) := by
  obtain ⟨row, hRow, hId, -, hState⟩ := context_ok hContext
  have hWho : Identified env s c.inboxId := ⟨current, hContext, hValid⟩
  unfold State.sendReply
  split
  · rename_i hPrivate
    split
    · -- the event was answered; the answer goes out only if that is allowed right now
      split
      · rename_i hAllowed
        obtain ⟨a, hAuthorized⟩ := Option.isSome_iff_exists.mp hAllowed
        exact attempt_commits (.replied hFound hReady hOrigin hWho
          (.answer hPrivate ⟨current, grant, a, hContext, hGrant, hAuthorized⟩))
      · refine attempt_commits ?_
        rw [hId]
        have hRowId := lookup_key hRow
        rw [← hRowId] at hRow hWho hOrigin ⊢
        exact .tookBack hSound hFound hReady (Prod.ext hOrigin hPrivate) hRow hWho
    · split
      · rename_i hRefused
        exact attempt_commits (.replied hFound hReady hOrigin hWho
          (.refusal hPrivate hRow (hState.symm.trans hRefused)))
      · exact .ret .still
  · rename_i hStatus
    exact attempt_commits (.replied hFound hReady hOrigin hWho (.status hStatus))

theorem claimReply_evolves {valid : Bool} (hSound : Sound env s)
    (hKnown : Known s c) :
    Commits env s (s.claimReply env c deliveryId valid (env.refusal c deliveryId) attempt) := by
  refine .bind fun ⟨current, grant⟩ hLocked => ?_
  obtain ⟨hGrant, hContext⟩ := locked_ok hLocked
  obtain ⟨row, hRow, -, hGrantId, -⟩ := context_ok hContext
  -- the grant was locked for the context that was read earlier; the event still names it
  obtain ⟨known, hSame, hKnownId⟩ := hKnown
  rw [hRow] at hSame
  cases hSame
  rw [← hKnownId, ← hGrantId] at hGrant
  simp only
  split
  · exact .ret .still
  · rename_i d hFound
    split
    · rename_i hMine
      obtain rfl : d.deliveryId = deliveryId := lookup_key hFound
      split
      · rename_i hGo
        exact sendReply_evolves hSound hContext hGrant hFound hMine.2 hMine.1 hGo.2.1
      · refine .ret ?_
        exact .changed hFound (.cancels _ (.inr hMine.2))
    · exact .ret .still

end Replies

/-! ## Programs -/

abbrev Acts {α : Type} (env : MsgEnv) (p : Prog State MsgError α) (h : List State) : Prop :=
  Safe Unused (MsgStep env) (fun _ _ => True) p h

section Programs

variable {α : Type} {h : List State} {ack : Ack} {draws : Draws} {im : Im}

theorem step_refl (s : State) (t : List State) : MsgStep env (s :: t) s := fun _ => .still

theorem read_acts {f : State → α} : Acts env (Prog.read f : Prog State MsgError α) h :=
  Safe.read step_refl fun _ _ _ _ => trivial

theorem reading_acts {f : State → Except MsgError α} : Acts env (reading f) h :=
  andThen read_acts fun _ => Safe.ofExcept fun _ _ => trivial

variable {f : State → Except MsgError (α × State)}

theorem commitDelivery_acts (hf : ∀ s, Commits env s (f s)) : Acts env (commitDelivery ack f) h :=
  Safe.transact step_refl fun s _ a s' hOk _ => hf s (a, s') hOk

theorem commitAgent_acts (hf : ∀ s, Commits env s (f s)) : Acts env (commitAgent ack f) h :=
  Safe.transact step_refl fun s _ a s' hOk _ => hf s (a, s') hOk

/-! ## People -/

variable {principal : Principal} {deliveryId : Str} {r : PrepareRequest}

theorem prepareNew_acts : Acts env (prepareNew env ack principal r deliveryId) h := by
  refine andThen read_acts fun now => require_seq fun _ => require_seq fun _ =>
    andThen reading_acts fun both => ofExcept_seq fun card _ => andThen ?_ fun saved =>
    ofExcept_seq fun _ _ => reading_acts
  exact commitDelivery_acts fun _ => prepare_evolves (fun _ => .person rfl rfl rfl rfl rfl)

theorem prepare_acts : Acts env (prepare env ack principal r deliveryId) h := by
  refine andThen read_acts fun existing => ?_
  cases existing with
  | some d => exact ofExcept_seq fun _ _ => reading_acts
  | none => exact prepareNew_acts

theorem confirm_acts : Acts env (confirm env ack principal deliveryId digest) h :=
  andThen (commitDelivery_acts fun _ => confirm_evolves) fun _ => reading_acts

theorem cancel_acts : Acts env (cancel ack principal deliveryId) h :=
  andThen (commitDelivery_acts fun _ => cancel_evolves) fun _ => reading_acts

/-! ## Questions -/

theorem delegationOf_acts : Acts env (delegationOf env im actor) h := by
  refine ofExcept_seq fun bots _ => ?_
  cases bots with
  | none => exact trivial
  | some bots => exact reading_acts

theorem question_acts : Acts env (question env im c) h := by
  refine andThen ?_ fun _ => ofExcept_seq fun _ _ => ofExcept_seq fun _ _ => trivial
  unfold sameDelegation
  split
  · exact trivial
  · exact andThen delegationOf_acts fun _ => Safe.require fun _ => trivial

variable {inboxId : Str} {seen : Message → DeliveryResult}

theorem acceptNew_acts : Acts env (acceptNew env ack agent event delegate inboxId) h := by
  refine andThen reading_acts fun actor => ?_
  cases actor with
  | none => exact trivial
  | some actor =>
    refine andThen reading_acts fun may => ?_
    cases may with
    | false => exact trivial
    | true =>
      exact andThen reading_acts fun grantId => commitAgent_acts fun _ => insertInbox_evolves

theorem acceptSession_acts : Acts env (acceptSession env ack agent event delegate inboxId) h := by
  refine andThen read_acts fun existing => ?_
  cases existing with
  | some r => exact trivial
  | none =>
    refine andThen read_acts fun active => ?_
    cases active with
    | false => exact trivial
    | true =>
      refine andThen read_acts fun existing => ?_
      cases existing with
      | some r => exact trivial
      | none => exact acceptNew_acts

variable {agentId : Str}

theorem accept_acts : Acts env (accept env ack agentId event delegate inboxId) h := by
  refine andThen reading_acts fun agent => Safe.ite (fun _ => ?_) fun _ => trivial
  refine andThen (caught acceptSession_acts) fun r => ?_
  cases r with
  | ok r => exact trivial
  | error e => exact andThen read_acts fun _ => Safe.ofExcept fun _ _ => trivial

theorem routeOf_acts {text : Str} : Acts env (routeOf env im agent event text) h := by
  refine Safe.ite (fun _ => ?_) fun _ => trivial
  refine andThen reading_acts fun actor => ?_
  cases actor with
  | none => exact trivial
  | some actor =>
    refine andThen delegationOf_acts fun agents => ?_
    cases agents with
    | none => exact trivial
    | some pair => exact ofExcept_seq fun _ _ => trivial

theorem receive_acts {callback : Str → Except MsgError (Event × Str)} :
    Acts env (receive env ack im callback agentId inboxId) h := by
  refine andThen reading_acts fun agent => ofExcept_seq fun came _ =>
    andThen read_acts fun existing => ?_
  cases existing with
  | some r => exact trivial
  | none =>
    refine andThen routeOf_acts fun route => ?_
    cases route with
    | error r => exact trivial
    | ok delegate => exact accept_acts

/-! ## Answers -/

def Seen (c : Context) (h : List State) : Prop := ∃ x ∈ h, Known x c

theorem known_of_seen {t : List State} (hSeen : Seen c h) (hSuf : h <:+ s :: t)
    (hRun : Lib.Run Unused (MsgStep env) (s :: t)) : Known s c := by
  obtain ⟨x, hx, row, hRow, hGrant⟩ := hSeen
  have hLater := (sound_later hRun x (hSuf.subset hx)).2
  obtain ⟨row', hRow', hFixed⟩ := hLater.inbox.kept hRow
  exact ⟨row', hRow', (Inbox.grantId_of_fixed hFixed).trans hGrant⟩

theorem known_of_context (hOk : s.context inboxId = .ok c) : Known s c := by
  obtain ⟨row, hRow, hId, hGrant, -⟩ := context_ok hOk
  exact ⟨row, hId ▸ hRow, hGrant.symm⟩

theorem announce_acts : Acts env (announce env draws c) h := by
  refine Safe.ite (fun _ => ?_) fun _ => trivial
  exact commitAgent_acts fun _ => enqueueStatus_evolves

variable {runtime : Option Runtime}

theorem answerClaimed_acts : Acts env (answerClaimed env draws im runtime c) h := by
  refine andThen question_acts fun asked => andThen announce_acts fun _ =>
    andThen reading_acts fun authorized => ofExcept_seq fun answer _ => ?_
  exact commitAgent_acts fun _ => complete_evolves

theorem answerBody_acts : Acts env (answerBody env draws im runtime inboxId) h := by
  refine andThen (commitAgent_acts fun _ => claimInbox_evolves) fun context => ?_
  cases context with
  | none => exact trivial
  | some c => exact answerClaimed_acts

theorem answer_acts : Acts env (answer env draws im runtime inboxId) h := by
  refine andThen (caught answerBody_acts) fun r => ?_
  cases r with
  | ok => exact trivial
  | error e => exact commitAgent_acts fun _ => fail_evolves

/-! ## The outbox -/

theorem claimReplyOf_acts (hSeen : Seen c h) :
    Acts env (claimReplyOf env draws im deliveryId c) h := by
  refine Safe.seq (caught question_acts) fun asked h₁ hExt₁ _ =>
    ofExcept_seq fun valid _ => ?_
  refine transactWith step_refl (fun _ _ _ _ _ => trivial) fun s t hSuf hRun a s' hOk => ?_
  have hKnown := known_of_seen hSeen (hExt₁.trans hSuf) hRun
  exact ⟨fun hSound => claimReply_evolves hSound hKnown (a, s') hOk, trivial⟩

theorem replyContext_seen (hOk : s.replyContext deliveryId = .ok (some c)) : Known s c := by
  unfold State.replyContext at hOk
  repeat' split at hOk
  all_goals try cases hOk
  obtain ⟨c', hContext, hSome⟩ := map_ok.mp hOk
  cases hSome
  exact known_of_context hContext

theorem claimReply_acts : Acts env (claimReply env draws im deliveryId) h := by
  have hRead : Safe Unused (MsgStep env)
      (fun (r : Option Context) h' => ∀ c, r = some c → Seen c h')
        (reading (State.replyContext · deliveryId)) h := by
    refine Safe.seq (P := fun r h' => ∀ c, r = .ok (some c) → Seen c h') ?_ fun r h' _ hSeen =>
      Safe.ofExcept fun found hFound c hSome => hSeen c (by rw [hFound, hSome])
    refine Safe.read step_refl fun s t _ _ c hOk => ?_
    exact ⟨s, mem_cons_self, replyContext_seen hOk⟩
  refine Safe.seq hRead fun context h' _ hSeen => ?_
  cases context with
  | none => exact trivial
  | some c => exact claimReplyOf_acts (hSeen c rfl)

theorem settle_acts : Acts env (settle ack deliveryId result d) h :=
  commitDelivery_acts fun _ => finish_evolves

theorem send_acts {replies : Bool} {sent : Message → DeliveryResult} :
    Acts env (send env draws im replies sent deliveryId) h := by
  refine andThen read_acts fun origin => andThen ?_ fun claimed => ?_
  · cases origin with
    | none => exact commitDelivery_acts fun _ => claim_evolves
    | some inboxId => exact require_seq fun _ => claimReply_acts
  · cases claimed with
    | none => exact trivial
    | some attempt => exact settle_acts

theorem reconcile_acts : Acts env (reconcile draws seen deliveryId) h := by
  refine andThen (commitDelivery_acts fun _ => uncertain_evolves) fun pending => ?_
  cases pending with
  | none => exact trivial
  | some attempt => exact settle_acts

theorem reconcileFor_acts : Acts env (reconcileFor draws seen principal deliveryId) h :=
  andThen reading_acts fun _ => require_seq fun _ => andThen reconcile_acts fun _ => reading_acts

variable {each : Str → Draws}

theorem reconcileAll_acts (pending : List Str) :
    ∀ h, Acts env (reconcileAll each seen pending) h := by
  induction pending with
  | nil => exact fun _ => trivial
  | cons deliveryId rest ih => exact fun _ => andThen reconcile_acts fun _ => ih _

theorem maintain_acts : Acts env (maintain ack locked todo each seen) h :=
  andThen (commitDelivery_acts fun _ => recoverReady_evolves) fun _ =>
    andThen read_acts fun pending => reconcileAll_acts pending _

theorem call_acts (call : MsgCall) : Acts env (call.program env draws) h := by
  cases call with
  | prepares => exact ended prepare_acts
  | confirms => exact ended confirm_acts
  | cancels => exact ended cancel_acts
  | sends => exact send_acts
  | reconciles => exact ended reconcileFor_acts
  | maintains => exact maintain_acts
  | publishes => exact ended (commitAgent_acts fun _ => publish_evolves)
  | grants => exact ended (commitAgent_acts fun _ => grant_evolves)
  | revokes => exact commitAgent_acts fun _ => revoke_evolves
  | withdraws => exact commitAgent_acts fun _ => withdraw_evolves
  | receives => exact ended receive_acts
  | answers => exact answer_acts
  | maintainsInbox => exact commitAgent_acts fun _ => maintainInbox_evolves

theorem MsgRun.steps {ps : Procs State MsgError} (hRun : MsgRun env h ps) :
    Lib.Run Unused (MsgStep env) h := by
  refine (PoolRun.refines (fun _ _ _ hOut _ => outside_evolves hOut) (fun _ s t => step_refl s t)
    (fun _ p hp h _ => ?_) hRun).1
  obtain ⟨call, draws, rfl⟩ := hp
  exact call_acts call

end Programs

end EternalAI.Messaging
