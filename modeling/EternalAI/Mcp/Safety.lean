import EternalAI.Mcp.Invariants

/-!
# Governed MCP operations — one approval, one send

A governed external write may be sent only with a human confirmation, and a
confirmation is good for one send. The permission is spread over two stores: the
decision is in the human gate, what it was taken for is in the operation. Both
may be renewed, rebound, expired and taken over at any time.

* `send_entries_authorised` — over any interleaving, every entry into `sending`
  was preceded by a confirmed and unexpired decision on the operation's current
  action, no request is behind two entries, and no attempt id is used twice.
* `non_idempotent_sent_once` — for a non-idempotent tool there is at most one
  entry, and a started send is never sendable again.

The argument for the first: an entry leaves the operation with a started send,
only a renewal takes that back, and the action digest of a renewal names the
revision it was made at, so no earlier action had it.
-/

namespace EternalAI.Mcp

open Lib List Function

variable {δ : Type}

/-! ## Entries into sending -/

def World.sendingOp (w : World δ) : Option (WorkflowOperation δ) :=
  w.row.bind fun row => if row.state = .sending then some row.encryptedPayload.payload else none

/-- The operations that entered `sending` along a history, newest first. -/
def sendEntries : List (World δ) → List (WorkflowOperation δ)
  | w' :: w :: t => (if w.sendingOp.isNone then w'.sendingOp.toList else []) ++ sendEntries (w :: t)
  | _ => []

variable {w w' : World δ} {t h : List (World δ)} {op : WorkflowOperation δ}

theorem World.sendingOp_of_holds (hOp : w.holds op) :
    w.sendingOp = if op.state = .sending then some op else none := by
  rw [World.sendingOp, hOp]
  rfl

theorem sendEntries_same (hSame : w'.row = w.row) :
    sendEntries (w' :: w :: t) = sendEntries (w :: t) := by
  have hOp : w'.sendingOp = w.sendingOp := by rw [World.sendingOp, World.sendingOp, hSame]
  rw [sendEntries, hOp]
  cases w.sendingOp <;> simp

variable {op' : WorkflowOperation δ}

theorem sendEntries_other (hOp' : w'.holds op') (hState : op'.state ≠ .sending) :
    sendEntries (w' :: w :: t) = sendEntries (w :: t) := by
  rw [sendEntries, World.sendingOp_of_holds hOp', if_neg hState]
  cases w.sendingOp.isNone <;> simp

theorem sendEntries_send (hOp : w.holds op) (hOp' : w'.holds op') (hFrom : op.state ≠ .sending)
    (hTo : op'.state = .sending) : sendEntries (w' :: w :: t) = op' :: sendEntries (w :: t) := by
  rw [sendEntries, World.sendingOp_of_holds hOp', World.sendingOp_of_holds hOp, if_neg hFrom,
    if_pos hTo]
  rfl

variable [DecidableEq δ] {cfg : Config δ} {op op' : WorkflowOperation δ}

/-- The commit of an entry: a ready attempt, authorised, is now being sent. -/
structure Sends (w w' : World δ) (t : List (World δ)) (op op' : WorkflowOperation δ) : Prop where
  before : w.holds op
  after : w'.holds op'
  ready : op.state = .ready
  sending : op'.state = .sending
  started : op'.sendStarted = true
  kept : Kept op op'
  authorised : Authorised (w :: t) op

/-- The commits of a run, with their effect on the entries. -/
inductive Commit (cfg : Config δ) (w w' : World δ) (t : List (World δ)) : Prop
  | none : w'.row = w.row → sendEntries (w' :: w :: t) = sendEntries (w :: t) → Commit cfg w w' t
  | create (op : WorkflowOperation δ) : w.row = none → w'.holds op → Created cfg op →
      sendEntries (w' :: w :: t) = sendEntries (w :: t) → Commit cfg w w' t
  | send (op op' : WorkflowOperation δ) : Sends w w' t op op' →
      sendEntries (w' :: w :: t) = op' :: sendEntries (w :: t) → Commit cfg w w' t
  | other (op op' : WorkflowOperation δ) : w.holds op → w'.holds op' →
      Effect cfg (w :: t) op op' → op'.state ≠ .sending → op'.revision = op.revision + 1 →
      sendEntries (w' :: w :: t) = sendEntries (w :: t) → Commit cfg w w' t
  | ready (op op' : WorkflowOperation δ) (requestId : String) : w.holds op → w'.holds op' →
      op.state = .waitingLocalConfirm →
      updated op (readyArgs requestId (cfg.uuid w.drawn)) = .ok op' →
      sendEntries (w' :: w :: t) = sendEntries (w :: t) → Commit cfg w w' t

theorem Step.commit (hStep : Step cfg (w :: t) w') : Commit cfg w w' t := by
  rcases hStep.row_cases with hSame | ⟨op, hNone, hNew, hOp⟩ |
    ⟨op, op', args, hOp, hOp', hUpd, hPerm⟩ | ⟨op, op', requestId, hOp, hOp', hState, hUpd⟩
  · exact .none hSame (sendEntries_same hSame)
  · exact .create op hNone hOp hNew (sendEntries_other hOp (by simp [hNew.state]))
  · have hEff := hPerm.effect hUpd
    by_cases hTo : op'.state = .sending
    · -- of all effects, only a send leads to `sending`
      cases hEff with
      | send hFrom _ hKept hSent hAuth =>
        exact .send op op' ⟨hOp, hOp', hFrom, hTo, hSent, hKept, hAuth⟩
          (sendEntries_send hOp hOp' (by simp [hFrom]) hTo)
      | close _ hTo' | settle _ hTo' | renew hTo' | takeover _ _ hTo' => simp [hTo] at hTo'
    · exact .other op op' hOp hOp' hEff hTo (updated_revision hUpd) (sendEntries_other hOp' hTo)
  · have hTo := (ready_effect hUpd).1
    exact .ready op op' requestId hOp hOp' hState hUpd (sendEntries_other hOp' (by simp [hTo]))

theorem Step.entries_cases (hStep : Step cfg (w :: t) w') :
    sendEntries (w' :: w :: t) = sendEntries (w :: t) ∨
    ∃ op op', Sends w w' t op op' ∧
      sendEntries (w' :: w :: t) = op' :: sendEntries (w :: t) := by
  cases hStep.commit with
  | none _ hEntries | create _ _ _ _ hEntries | other _ _ _ _ _ _ _ hEntries
  | ready _ _ _ _ _ _ _ hEntries => exact .inl hEntries
  | send op op' hSends hEntries => exact .inr ⟨op, op', hSends, hEntries⟩

theorem Runs.entry_sends (hRun : Runs cfg h) {e : WorkflowOperation δ} (he : e ∈ sendEntries h) :
    ∃ w w' t op, w' :: w :: t <:+ h ∧ Runs cfg (w :: t) ∧ Sends w w' t op e := by
  induction hRun with
  | start hs => simp [sendEntries] at he
  | @step w w' t hRun hStep ih =>
    have hPast : e ∈ sendEntries (w :: t) → ∃ v v' u op,
        v' :: v :: u <:+ w' :: w :: t ∧ Runs cfg (v :: u) ∧ Sends v v' u op e := fun he => by
      obtain ⟨v, v', u, op, hSuf, hRest⟩ := ih he
      exact ⟨v, v', u, op, hSuf.trans (suffix_cons _ _), hRest⟩
    rcases hStep.entries_cases with hSame | ⟨op, op', hSends, hEntries⟩
    · exact hPast (hSame ▸ he)
    · rw [hEntries] at he
      rcases mem_cons.mp he with rfl | he
      · exact ⟨w, w', t, op, suffix_rfl, hRun, hSends⟩
      · exact hPast he

theorem Runs.seen_of_entry (hRun : Runs cfg h) : ∀ e ∈ sendEntries h, Seen h e := by
  intro e he
  obtain ⟨w, w', t, op, hSuf, -, hSends⟩ := hRun.entry_sends he
  exact ⟨w', hSuf.subset mem_cons_self, hSends.after⟩

/-! ## Action digests -/

/-- A digest that names a revision is older than the operation that has it. -/
structure DigestAged (cfg : Config δ) (op : WorkflowOperation δ) : Prop where
  renewal : ∀ original revision context version, op.actionDigest =
    cfg.scheme.digest (.renewal original revision context version) → revision < op.revision
  rebind : ∀ original revision context, op.actionDigest =
    cfg.scheme.digest (.rebind original revision context) → revision < op.revision

omit [DecidableEq δ] in
theorem DigestAged.kept (hAged : DigestAged cfg op) (hDigest : op'.actionDigest = op.actionDigest)
    (hRev : op'.revision = op.revision + 1) : DigestAged cfg op' where
  renewal := fun original revision context version hEq => by
    have := hAged.renewal original revision context version (hDigest ▸ hEq)
    omega
  rebind := fun original revision context hEq => by
    have := hAged.rebind original revision context (hDigest ▸ hEq)
    omega

section

variable (hInj : Injective cfg.scheme.digest)

include hInj

omit [DecidableEq δ] in
theorem DigestAged.of_payload {payload : Payload δ}
    (hDigest : op.actionDigest = cfg.scheme.digest payload)
    (hRenewal : ∀ original revision context version,
      payload = .renewal original revision context version → revision < op.revision)
    (hRebind : ∀ original revision context,
      payload = .rebind original revision context → revision < op.revision) :
    DigestAged cfg op where
  renewal := fun original revision context version hEq =>
    hRenewal original revision context version (hInj (hDigest.symm.trans hEq))
  rebind := fun original revision context hEq =>
    hRebind original revision context (hInj (hDigest.symm.trans hEq))

theorem Effect.aged (hEff : Effect cfg h op op') (hRev : op'.revision = op.revision + 1)
    (hAged : DigestAged cfg op) : DigestAged cfg op' := by
  cases hEff with
  | close _ _ hKept | send _ _ hKept | settle _ _ hKept => exact hAged.kept hKept.actionDigest hRev
  | takeover context version _ _ _ _ _ hDigest =>
    exact .of_payload hInj hDigest (fun _ _ _ _ hEq => by cases hEq) fun _ _ _ hEq => by cases hEq
  | renew _ hKey =>
    cases hKey with
    | same _ hDigest => exact hAged.kept hDigest hRev
    -- a new digest names the revision that is replaced
    | rebind context _ hDigest =>
      refine .of_payload hInj hDigest (fun _ _ _ _ hEq => by cases hEq) fun _ _ _ hEq => ?_
      cases hEq
      omega
    | renewal context version _ hDigest =>
      refine .of_payload hInj hDigest (fun _ _ _ _ hEq => ?_) fun _ _ _ hEq => by cases hEq
      cases hEq
      omega

theorem Runs.aged (hRun : Runs cfg h) : ∀ w ∈ h, ∀ op, w.holds op → DigestAged cfg op := by
  refine hRun.op_inv (fun hNew => ?_) (fun hEff hRev hAged => hEff.aged hInj hRev hAged)
    fun _ hUpd hAged => hAged.kept (ready_effect hUpd).2.2.2 (updated_revision hUpd)
  obtain ⟨_, _, _, _, _, _, hDigest⟩ := hNew.actionDigest
  exact .of_payload hInj hDigest (fun _ _ _ _ hEq => by cases hEq) fun _ _ _ hEq => by cases hEq

end

/-! ## A spent permission stays spent -/

/-- If the operation still has the action or the attempt of an earlier entry,
then its send has started. -/
def Spent (h : List (World δ)) (op : WorkflowOperation δ) : Prop :=
  ∀ e ∈ sendEntries h, e.actionDigest = op.actionDigest ∨ e.attemptId = op.attemptId →
    op.sendStarted = true

variable {e : WorkflowOperation δ}

/-- An entry was stored, so it is no younger than the present operation. -/
theorem Runs.entry_revision_le (hRun : Runs cfg (w :: t)) (hOp : w.holds op)
    (he : e ∈ sendEntries (w :: t)) : e.revision ≤ op.revision := by
  obtain ⟨x, hx, hHolds⟩ := Runs.seen_of_entry hRun e he
  obtain ⟨op₁, hOp₁, hLater, -⟩ := Runs.later hRun x hx e hHolds
  rw [World.holds_unique hOp hOp₁]
  rcases hLater with rfl | hLt <;> omega

theorem Rekeyed.ne_entry {d : δ} (hInj : Injective cfg.scheme.digest)
    (hRun : Runs cfg (w :: t)) (hOp : w.holds op) (hSpent : Spent (w :: t) op)
    (hKey : Rekeyed cfg op d) : ∀ e ∈ sendEntries (w :: t), e.actionDigest ≠ d := by
  intro e he hEq
  obtain ⟨x, hx, hHolds⟩ := Runs.seen_of_entry hRun e he
  have hAged := Runs.aged hInj hRun x hx e hHolds
  have hLe := Runs.entry_revision_le hRun hOp he
  cases hKey with
  | same hState hDigest =>
    -- the action is renewed under its own digest only where nothing was sent
    have hFlag := Runs.flag hRun w mem_cons_self op hOp
    have hUnsent := hFlag.unsent (by simp [hState])
    rw [hSpent e he (.inl (hEq.trans hDigest))] at hUnsent
    cases hUnsent
  -- a digest that names the present revision is that of a younger row than any entry's
  | rebind context _ hDigest =>
    have := hAged.rebind _ _ _ (hEq.trans hDigest)
    omega
  | renewal context version _ hDigest =>
    have := hAged.renewal _ _ _ _ (hEq.trans hDigest)
    omega

theorem Runs.entry_drawn (hIds : FreshIds cfg) (hRun : Runs cfg (w :: t))
    (he : e ∈ sendEntries (w :: t)) {a : String} (ha : e.attemptId = some a) : Drawn cfg w a := by
  obtain ⟨x, hx, hHolds⟩ := Runs.seen_of_entry hRun e he
  exact ((Runs.attempts hIds hRun x hx e hHolds).current a ha).1.mono (Runs.drawn_le hRun x hx)

theorem Runs.entry_ids (hIds : FreshIds cfg) (hRun : Runs cfg h) :
    ∀ e ∈ sendEntries h, (∃ a, e.attemptId = some a) ∧ ∃ g, e.gateRequestId = some g := by
  intro e he
  obtain ⟨w, w', t, op, -, hRun, hSends⟩ := hRun.entry_sends he
  rw [hSends.kept.attemptId, hSends.kept.gateRequestId]
  have hReady := (Runs.attempts hIds hRun w mem_cons_self op hSends.before).ready hSends.ready
  obtain ⟨x, -, row, -, hRow⟩ := hSends.authorised
  exact ⟨Option.ne_none_iff_exists'.mp hReady, _, (GateRow.authorises_iff.mp hRow).1⟩

section

variable (hIds : FreshIds cfg) (hInj : Injective cfg.scheme.digest) (hRun : Runs cfg h)

include hIds hInj hRun

/-- **A spent permission stays spent**, along every run. -/
theorem Runs.spent : ∀ w t, h = w :: t → ∀ op, w.holds op → Spent h op := by
  induction hRun with
  | start hs => simp [Spent, sendEntries]
  | @step w w' t hRun hStep ih =>
    rintro _ _ ⟨⟩ op₁ hOp₁
    cases hStep.commit with
    | none hSame hEntries =>
      rw [Spent, hEntries]
      exact ih w t rfl op₁ (hSame.symm.trans hOp₁)
    | create op hNone hOp hNew hEntries =>
      -- there was no row, hence no entry
      intro e he
      rw [hEntries] at he
      obtain ⟨x, hx, hHolds⟩ := Runs.seen_of_entry hRun e he
      obtain ⟨op', hOp', -, -⟩ := Runs.later hRun x hx e hHolds
      rw [World.holds, hNone] at hOp'
      cases hOp'
    | send op op' hSends hEntries =>
      rw [World.holds_unique hOp₁ hSends.after]
      exact fun e _ _ => hSends.started
    | ready op op' requestId hOp hOp' hState hUpd hEntries =>
      rw [World.holds_unique hOp₁ hOp', Spent, hEntries]
      intro e he hEq
      obtain ⟨-, hSent, -, hDigest⟩ := ready_effect hUpd
      have hAttempt := ready_attemptId (hIds.nonempty _) hUpd
      rw [hDigest, hAttempt] at hEq
      rw [hSent]
      rcases hEq with hEq | hEq
      · exact ih w t rfl op hOp e he (.inl hEq)
      · -- the new id is later than that of any entry
        obtain ⟨n, hn, hId⟩ := Runs.entry_drawn hIds hRun he hEq
        have := hIds.injective hId
        omega
    | other op op' hOp hOp' hEff hTo hRev hEntries =>
      rw [World.holds_unique hOp₁ hOp', Spent, hEntries]
      intro e he hEq
      have hSpent : Spent (w :: t) op := ih w t rfl op hOp
      cases hEff with
      | close _ _ hKept hSent | settle _ _ hKept hSent =>
        rw [hSent]
        exact hSpent e he (by rwa [← hKept.actionDigest, ← hKept.attemptId])
      | send _ _ _ hSent | takeover _ _ _ _ hSent => exact hSent
      | renew _ hKey hAttempt =>
        -- a renewal clears the attempt, and takes the digest of no entry
        obtain ⟨⟨a, ha⟩, -⟩ := Runs.entry_ids hIds hRun e he
        rcases hEq with hEq | hEq
        · exact absurd hEq (hKey.ne_entry hInj hRun hOp hSpent e he)
        · rw [ha, hAttempt] at hEq
          cases hEq

/-- Two entries are for different actions and under different attempts. -/
theorem Runs.entries_distinct : (sendEntries h).Pairwise fun e e' =>
      e.actionDigest ≠ e'.actionDigest ∧ e.attemptId ≠ e'.attemptId := by
  induction hRun with
  | start hs => simp [sendEntries]
  | @step w w' t hRun hStep ih =>
    rcases hStep.entries_cases with hSame | ⟨op, op', hSends, hEntries⟩
    · rw [hSame]
      exact ih
    · rw [hEntries]
      refine pairwise_cons.mpr ⟨fun e he => ?_, ih⟩
      -- the operation was ready, so nothing was sent under its action and attempt
      have hUnsent : op.sendStarted = false :=
        (Runs.flag hRun w mem_cons_self op hSends.before).unsent (by simp [hSends.ready])
      have hSpent := Runs.spent hIds hInj hRun w t rfl op hSends.before e he
      rw [hSends.kept.actionDigest, hSends.kept.attemptId]
      constructor <;> intro hEq
      · simp [hSpent (.inl hEq.symm)] at hUnsent
      · simp [hSpent (.inr hEq.symm)] at hUnsent

end

/-! ## The gate -/

/-- Request ids are unique, and a decision is taken while its request is open. -/
structure GateSound (w : World δ) : Prop where
  unique : ∀ r₁ ∈ w.gate, ∀ r₂ ∈ w.gate,
    r₁.request.requestId = r₂.request.requestId → r₁.request = r₂.request
  timely : ∀ row ∈ w.gate, ∀ d, row.decision = some d →
    row.request.requestedAt ≤ d.decidedAt ∧ d.decidedAt ≤ row.request.expiresAt

def GateGrows (w w' : World δ) : Prop :=
  ∀ row ∈ w.gate, ∃ row' ∈ w'.gate, row'.request = row.request

private theorem mem_recordDecision {d : HumanGateDecisionRecord δ} {row' : GateRow δ}
    (hRow' : row' ∈ (recordDecision d w).gate) : ∃ row ∈ w.gate, row'.request = row.request ∧
      (row' = row ∨ row.accepts d ∧ row'.decision = some d) := by
  obtain ⟨row, hRow, rfl⟩ := mem_map.mp hRow'
  refine ⟨row, hRow, ?_⟩
  split
  · exact ⟨rfl, .inr ⟨‹_›, rfl⟩⟩
  · exact ⟨rfl, .inl rfl⟩

theorem Step.gateGrows (hStep : Step cfg (w :: t) w') : GateGrows w w' := by
  intro row hRow
  cases hStep with
  | idle | env | guard | draw | create | advance | ready => exact ⟨row, hRow, rfl⟩
  | request _ _ r => exact ⟨row, mem_cons_of_mem _ hRow, rfl⟩
  | decide _ _ d =>
    refine ⟨_, mem_map_of_mem hRow, ?_⟩
    split <;> rfl

theorem Step.gateSound (hGate : GateSound w) (hStep : Step cfg (w :: t) w') : GateSound w' := by
  cases hStep with
  | idle | env | guard | draw | create | advance | ready => exact ⟨hGate.unique, hGate.timely⟩
  | request _ _ r hFree =>
    have hNew : ∀ row ∈ w.gate, row.request.requestId ≠ r.requestId := by
      simpa [World.gateRow] using hFree
    constructor
    · intro r₁ hr₁ r₂ hr₂ hId
      rcases mem_cons.mp hr₁ with rfl | hr₁ <;> rcases mem_cons.mp hr₂ with rfl | hr₂
      · rfl
      · exact absurd hId.symm (hNew r₂ hr₂)
      · exact absurd hId (hNew r₁ hr₁)
      · exact hGate.unique r₁ hr₁ r₂ hr₂ hId
    · intro row hRow d hDec
      rcases mem_cons.mp hRow with rfl | hRow
      · cases hDec
      · exact hGate.timely row hRow d hDec
  | decide _ _ d =>
    constructor
    · intro r₁ hr₁ r₂ hr₂ hId
      obtain ⟨s₁, hs₁, hEq₁, -⟩ := mem_recordDecision hr₁
      obtain ⟨s₂, hs₂, hEq₂, -⟩ := mem_recordDecision hr₂
      rw [hEq₁, hEq₂] at hId ⊢
      exact hGate.unique s₁ hs₁ s₂ hs₂ hId
    · intro row' hRow' d' hDec
      obtain ⟨row, hRow, hReq, hCase⟩ := mem_recordDecision hRow'
      rcases hCase with rfl | ⟨hAcc, hNew⟩
      · exact hGate.timely row' hRow d' hDec
      · -- the gate takes a decision between the two times of its request only
        obtain rfl : d = d' := Option.some.inj (hNew.symm.trans hDec)
        obtain ⟨-, -, -, -, -, -, -, hAfter, hBefore, -⟩ := hAcc
        rw [hReq]
        exact ⟨hAfter, hBefore⟩

theorem Runs.gateSound (hRun : Runs cfg h) : ∀ w ∈ h, GateSound w := by
  refine Run.mem_inv ?_ (fun w t w' hGate hStep => hStep.gateSound hGate) hRun
  intro w hInit
  constructor <;> simp [hInit.2.1]

theorem Runs.gateGrows (hRun : Runs cfg (w :: t)) : ∀ x ∈ w :: t, GateGrows x w := by
  refine Run.rel_head (fun _ row hRow => ⟨row, hRow, rfl⟩) ?_
    (fun _ _ _ hStep => hStep.gateGrows) hRun
  intro a b c hab hbc row hRow
  obtain ⟨row₁, hRow₁, hEq₁⟩ := hab row hRow
  obtain ⟨row₂, hRow₂, hEq₂⟩ := hbc row₁ hRow₁
  exact ⟨row₂, hRow₂, hEq₂.trans hEq₁⟩

/-! ## Approval -/

/-- At some point of the history the request of `e` was confirmed, by a decision
taken while it was open, had not expired, and was for the action of `e`. -/
def Approved (h : List (World δ)) (e : WorkflowOperation δ) : Prop :=
  ∃ w ∈ h, ∃ row ∈ w.gate, ∃ d, row.decision = some d ∧ d.decision = .confirmed ∧
    row.request.requestedAt ≤ d.decidedAt ∧ d.decidedAt ≤ row.request.expiresAt ∧
    w.env.now < row.request.expiresAt ∧
    e.gateRequestId = some row.request.requestId ∧ row.request.actionDigest = e.actionDigest

theorem Runs.approved (hRun : Runs cfg h) (hAuth : Authorised h op) (hKept : Kept op op') :
    Approved h op' := by
  obtain ⟨w, hw, row, hRow, hAuth⟩ := hAuth
  obtain ⟨hId, -, -, -, -, hDigest, ⟨d, hDec, hYes⟩, hLive⟩ := GateRow.authorises_iff.mp hAuth
  obtain ⟨hAfter, hBefore⟩ := (Runs.gateSound hRun w hw).timely row hRow d hDec
  exact ⟨w, hw, row, hRow, d, hDec, hYes, hAfter, hBefore, hLive,
    hKept.gateRequestId.trans hId, hDigest.trans hKept.actionDigest.symm⟩

theorem Step.approved (hRun : Runs cfg (w :: t)) (hStep : Step cfg (w :: t) w')
    (hNow : w'.sendingOp = some e) (hBefore : w.sendingOp = none) : Approved (w :: t) e := by
  cases hStep.commit with
  | none hSame =>
    have hEq : w'.sendingOp = w.sendingOp := by rw [World.sendingOp, World.sendingOp, hSame]
    rw [hEq, hBefore] at hNow
    cases hNow
  | create op hNone hOp hNew =>
    simp [World.sendingOp_of_holds hOp, hNew.state] at hNow
  | other op op' hOp hOp' hEff hTo => simp [World.sendingOp_of_holds hOp', hTo] at hNow
  | ready op op' requestId hOp hOp' hState hUpd =>
    simp [World.sendingOp_of_holds hOp', (ready_effect hUpd).1] at hNow
  | send op op' hSends =>
    rw [World.sendingOp_of_holds hSends.after, if_pos hSends.sending] at hNow
    rw [← Option.some.inj hNow]
    exact Runs.approved hRun hSends.authorised hSends.kept

theorem Runs.entry_request (hRun : Runs cfg (w :: t)) : ∀ e ∈ sendEntries (w :: t), ∃ row ∈ w.gate,
      e.gateRequestId = some row.request.requestId ∧
      row.request.actionDigest = e.actionDigest := by
  intro e he
  obtain ⟨v, v', u, op, hSuf, hPast, hSends⟩ := hRun.entry_sends he
  obtain ⟨x, hx, row, hRow, -, -, -, -, -, -, hId, hDigest⟩ :=
    Runs.approved hPast hSends.authorised hSends.kept
  -- requests are never removed, so the one it was sent under is still there
  have hx := hSuf.subset (mem_cons_of_mem _ hx)
  obtain ⟨row', hRow', hEq⟩ := Runs.gateGrows hRun x hx row hRow
  exact ⟨row', hRow', by rw [hEq, hId], by rw [hEq, hDigest]⟩

/--
**One approval, one send.** Take any interleaving of service calls on a governed
operation, with crashes anywhere. The entries into `sending` are under pairwise
different confirmation requests and pairwise different attempts, and each was
preceded by a confirmed, unexpired decision on the operation's current action.
-/
theorem send_entries_authorised (hIds : FreshIds cfg)
    (hInj : Injective cfg.scheme.digest) {h : List (World δ)}
    {ps : Procs (World δ) Failure} (hPool : ServiceRun cfg h ps) :
    (∀ e ∈ sendEntries h, (∃ a, e.attemptId = some a) ∧ ∃ g, e.gateRequestId = some g) ∧
    ((sendEntries h).map (·.gateRequestId)).Nodup ∧
    ((sendEntries h).map (·.attemptId)).Nodup ∧
    (∀ w' w t, w' :: w :: t <:+ h → ∀ e, w'.sendingOp = some e → w.sendingOp = none →
      Approved (w :: t) e) := by
  have hRun := hPool.runs
  have hDistinct := Runs.entries_distinct hIds hInj hRun
  refine ⟨Runs.entry_ids hIds hRun, ?_, ?_, ?_⟩
  · refine pairwise_map.mpr (hDistinct.imp_of_mem fun {e e'} he he' hNe hEq => hNe.1 ?_)
    -- one id is one request, and one request is for one action
    obtain ⟨w, t, rfl⟩ := exists_cons_of_ne_nil hRun.ne_nil
    obtain ⟨row, hRow, hId, hDigest⟩ := Runs.entry_request hRun e he
    obtain ⟨row', hRow', hId', hDigest'⟩ := Runs.entry_request hRun e' he'
    have hSame : row.request = row'.request :=
      (Runs.gateSound hRun w mem_cons_self).unique row hRow row' hRow'
        (Option.some.inj (by rw [← hId, ← hId', hEq]))
    rw [← hDigest, ← hDigest', hSame]
  · exact pairwise_map.mpr (hDistinct.imp fun hNe => hNe.2)
  · intro w' w t hSuf e hNow hBefore
    have hStep := Run.last_step (hRun.of_suffix hSuf)
    exact hStep.approved (hRun.of_suffix ((suffix_cons _ _).trans hSuf)) hNow
      hBefore

/-- The sample run sends twice, under two requests and two attempts. -/
theorem send_entries_authorised_sample :
    (sendEntries (Sample.resent "talk_task_claim")).length = 2 ∧
    ((sendEntries (Sample.resent "talk_task_claim")).map (·.gateRequestId)).Nodup ∧
    ((sendEntries (Sample.resent "talk_task_claim")).map (·.attemptId)).Nodup := by
  obtain ⟨ps, hPool⟩ := Sample.resent_runs "talk_task_claim"
  obtain ⟨-, hGate, hAttempt, -⟩ := send_entries_authorised (Sample.freshIds _)
    (fun _ _ hEq => SymbolicDigest.of_injective hEq) hPool
  exact ⟨by decide +kernel, hGate, hAttempt⟩

/-! ## Non-idempotent tools -/

def SentOnce (op : WorkflowOperation δ) : Prop :=
  op.remoteTool ∈ nonIdempotentTools ∧ op.sendStarted = true

theorem Effect.sentOnce (hEff : Effect cfg h op op') (hTool : op'.remoteTool = op.remoteTool)
    (hSent : SentOnce op) (hFlag : FlagAgrees op) : SentOnce op' := by
  refine ⟨hTool ▸ hSent.1, ?_⟩
  cases hEff with
  | close _ _ _ hSame | settle _ _ _ hSame => rw [hSame]; exact hSent.2
  | send _ _ _ hNow | takeover _ _ _ _ hNow => exact hNow
  | renew _ hKey =>
    -- a waiting card has not been sent, and a sent one is not renewed
    cases hKey with
    | same hState | rebind _ hState =>
      have := hFlag.unsent (by simp [hState])
      simp [hSent.2] at this
    | renewal _ _ hAllowed => exact absurd hSent.1 (hAllowed hSent.2)

theorem Step.sentOnce (hRun : Runs cfg (w :: t)) (hStep : Step cfg (w :: t) w') (hOp : w.holds op)
    (hSent : SentOnce op) : ∃ op', w'.holds op' ∧ SentOnce op' := by
  have hFlag := Runs.flag hRun w mem_cons_self op hOp
  rcases hStep.row_cases with hSame | ⟨_, hNone, -, -⟩ |
    ⟨op₁, op', args, hOp₁, hOp', hUpd, hPerm⟩ | ⟨op₁, op', requestId, hOp₁, hOp', hState, hUpd⟩
  · exact ⟨op, hSame.trans hOp, hSent⟩
  · rw [World.holds, hNone] at hOp
    cases hOp
  · obtain rfl := World.holds_unique hOp hOp₁
    exact ⟨op', hOp', (hPerm.effect hUpd).sentOnce (updated_sameProposal hUpd).remoteTool hSent
      hFlag⟩
  · -- what becomes ready was waiting for its confirmation, and had not been sent
    obtain rfl := World.holds_unique hOp hOp₁
    have := hFlag.unsent (by simp [hState])
    simp [hSent.2] at this

theorem Runs.sentOnce (hRun : Runs cfg h) :
    ∀ w t, h = w :: t → ∀ x ∈ h, ∀ op, x.holds op → SentOnce op →
      ∃ op', w.holds op' ∧ SentOnce op' := by
  induction hRun with
  | start hs =>
    rintro w t ⟨⟩ x hx op hOp hSent
    rw [mem_singleton.mp hx] at hOp
    exact ⟨op, hOp, hSent⟩
  | @step w w' t hRun hStep ih =>
    rintro _ _ ⟨⟩ x hx op hOp hSent
    rcases mem_cons.mp hx with rfl | hx
    · exact ⟨op, hOp, hSent⟩
    · obtain ⟨op₁, hOp₁, hSent₁⟩ := ih w t rfl x hx op hOp hSent
      exact hStep.sentOnce hRun hOp₁ hSent₁

theorem Runs.non_idempotent_entries (hRun : Runs cfg h) :
    ((sendEntries h).filter fun e => e.remoteTool ∈ nonIdempotentTools).length ≤ 1 := by
  induction hRun with
  | start hs => simp [sendEntries]
  | @step w w' t hRun hStep ih =>
    rcases hStep.entries_cases with hSame | ⟨op, op', hSends, hEntries⟩
    · rw [hSame]
      exact ih
    · -- an earlier entry would have left the send started, but the operation was ready
      have hNone : (sendEntries (w :: t)).filter
          (fun e => e.remoteTool ∈ nonIdempotentTools) = [] := by
        refine filter_eq_nil_iff.mpr fun e he hTool => ?_
        obtain ⟨_, x, _, _, hSuf, -, hPast⟩ := Runs.entry_sends hRun he
        obtain ⟨op₁, hOp₁, hSent₁⟩ := Runs.sentOnce hRun w t rfl x
          (hSuf.subset mem_cons_self) e hPast.after ⟨by simpa using hTool, hPast.started⟩
        obtain rfl := World.holds_unique hSends.before hOp₁
        have := (Runs.flag hRun w mem_cons_self op hOp₁).unsent (by simp [hSends.ready])
        simp [hSent₁.2] at this
      rw [hEntries, filter_cons, hNone]
      split <;> simp

/--
**A non-idempotent tool is sent at most once.** Over any interleaving of service
calls, an operation on such a tool enters `sending` at most once, and once its
send has started it never again waits for a confirmation or is ready.
-/
theorem non_idempotent_sent_once {h : List (World δ)} {ps : Procs (World δ) Failure}
    (hPool : ServiceRun cfg h ps) :
    ((sendEntries h).filter fun e => e.remoteTool ∈ nonIdempotentTools).length ≤ 1 ∧
    (∀ w' t, w' :: t <:+ h → ∀ w ∈ t, ∀ op, w.holds op → op.remoteTool ∈ nonIdempotentTools →
      op.sendStarted = true → ∃ op', w'.holds op' ∧ op'.remoteTool = op.remoteTool ∧
        op'.sendStarted = true ∧
        op'.state ∉ [.ready, .waitingLocalConfirm, .cancelled, .expired]) := by
  have hRun := hPool.runs
  constructor
  · exact Runs.non_idempotent_entries hRun
  · intro w' t hSuf w hw op hOp hTool hSent
    have hRun' : Runs cfg (w' :: t) := hRun.of_suffix hSuf
    have hMem : w ∈ w' :: t := mem_cons_of_mem _ hw
    obtain ⟨op', hOp', hSent'⟩ := Runs.sentOnce hRun' w' t rfl w hMem op hOp ⟨hTool, hSent⟩
    obtain ⟨op₁, hOp₁, -, hSame⟩ := Runs.later hRun' w hMem op hOp
    obtain rfl := World.holds_unique hOp' hOp₁
    refine ⟨op', hOp', hSame, hSent'.2, fun hState => ?_⟩
    have := (Runs.flag hRun' w' mem_cons_self op' hOp').unsent hState
    simp [hSent'.2] at this

/-- The sample run of a non-idempotent tool sends once. -/
theorem non_idempotent_sent_once_sample :
    (sendEntries (Sample.sent "talk_preparation_save")).length = 1 ∧
    ((sendEntries (Sample.sent "talk_preparation_save")).filter
      fun e => e.remoteTool ∈ nonIdempotentTools).length ≤ 1 := by
  obtain ⟨ps, hPool, -⟩ := Sample.sent_runs "talk_preparation_save"
  exact ⟨by decide +kernel, (non_idempotent_sent_once hPool).1⟩

end EternalAI.Mcp
