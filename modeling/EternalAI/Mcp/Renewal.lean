import EternalAI.Mcp.Invariants

/-!
# Governed MCP operations — interrupted renewals

`takeover` and `reconcile` end in `renewConfirmation`, which creates a request
and then moves the operation to it. A process that dies in between leaves the
request behind and the operation as it was, so that the next renewal derives the
same request id.

* `renewal_reopens` — a later call leads to a pending request exactly when nothing was
  left behind, or what was is still pending; otherwise it fails closed.
* `abandoned_request_blocks` — once it has expired, the call fails on it and
  changes nothing, and so does every later one.
-/

namespace EternalAI.Mcp

open Lib Prog

variable {δ : Type}

theorem transition_held {op op' : WorkflowOperation δ} {args : TransitionArgs δ} {w : World δ}
    (hHeld : w.holds op) (hUpd : updated op args = .ok op') :
    transition op args w = .ok (op', { w with row := some (encode op') }) := by
  have hMatch : (encode op).matches op = true := by simp [OperationRow.matches, encode]
  unfold transition
  rw [hUpd, show w.row = some (encode op) from hHeld]
  simp [bind, Except.bind, hMatch, overwrite_encode hUpd]

/-- A transition leaves the gate alone. -/
theorem committed_transition {op : WorkflowOperation δ} {args : TransitionArgs δ} {w : World δ} :
    (committed (transition op args) w).gate = w.gate := by
  cases hTrans : transition op args w with
  | error e => rw [committed_error hTrans]
  | ok out =>
    obtain ⟨-, _, -, -, hEq⟩ := transition_ok hTrans
    rw [committed_ok hTrans, hEq]

/-- A row that was just inserted is found. -/
theorem gateRow_inserted (r : HumanGateRequest δ) (w : World δ) :
    World.gateRow { w with gate := ⟨r, none⟩ :: w.gate } r.requestId = some ⟨r, none⟩ :=
  List.find?_cons_of_pos (decide_eq_true rfl)

theorem gateRow_id {w : World δ} {id : String} {row : GateRow δ}
    (hRow : w.gateRow id = some row) : row.request.requestId = id := by
  simpa using List.find?_some hRow

/-! ## The renewal -/

/-- What a renewal is made with: the login, the operation, the context that the operation is
to have and the version of its recovery policy. -/
structure Renewal (δ : Type) where
  cfg : Config δ
  session : Session
  op : WorkflowOperation δ
  context : McpAuthorizationContext
  policyVersion : String

namespace Renewal

variable (a : Renewal δ) (v w : World δ)

abbrev call [DecidableEq δ] : Call δ (WorkflowOperation δ) :=
  renewConfirmation a.cfg (some a.session) a.op a.context a.policyVersion

def actionDigest : δ :=
  a.cfg.scheme.digest (.renewal a.op.actionDigest a.op.revision a.context a.policyVersion)

def requestDigest : δ := a.cfg.scheme.digest (.request a.op.operationId a.actionDigest)

/-- The id of its request. Neither the time nor the login enters it, so that a repeated
renewal of the same operation comes to the same id. -/
def requestId : String := a.cfg.scheme.first32 a.requestDigest

/-- The deadline of its request, if it begins in `w`. -/
def expiry : Int :=
  minDeadline (min a.session.expiresAt (w.env.now + confirmationWindow)) a.op.artifactExpiresAt

/-- The request that it asks for in `w`. -/
def request : HumanGateRequest δ where
  requestId := a.requestId
  taskId := a.context.taskId
  requestedForAiUserId := a.context.userId
  requestedSessionId := a.context.chatSessionId
  requestedTenantId := a.context.tenantId
  actionDigest := a.actionDigest
  requestDigest := a.requestDigest
  bindingManifestDigest := w.env.taskBinding.getD ""
  requestedAt := w.env.now
  expiresAt := a.expiry w

def stored : Option (GateRow δ) := w.gateRow a.requestId

/-- The stored operation may be renewed, whatever the gate has under the id of
the new request. -/
structure May : Prop where
  held : w.holds a.op
  login : w.env.now < a.session.expiresAt
  deadline : a.op.sendStarted = true → a.op.artifactExpiresAt ≠ none
  artifact : ∀ d ∈ a.op.artifactExpiresAt, w.env.now < d
  state : .waitingLocalConfirm ∈ allowed a.op.state
  room : a.op.previousAttempts.length < 10
  same : sameBinding a.context a.op.context = true
  binding : w.env.taskBinding.isSome = true
  subject : (w.env.task.map fun (_, user, chat) => (user, chat)) =
    some (a.context.userId, a.context.chatSessionId)
  valid : (a.request w).validate a.cfg = true

/-- `gate` takes the stored request for the one that the renewal asks for in `w`. -/
abbrev Suits [DecidableEq δ] (request : HumanGateRequest δ) : Prop :=
  request.suits a.cfg a.context a.actionDigest a.requestDigest a.requestId
    (w.env.taskBinding.getD "") (a.expiry w) w.env.now

/-- What is stored under the id of the request, if anything, is pending, and
`gate` takes it for its own. -/
def Unblocked [DecidableEq δ] : Prop :=
  ∀ row ∈ a.stored w,
    row.decision = none ∧ w.env.now < row.request.expiresAt ∧ a.Suits w row.request

/-- The renewal has failed on a request that ran out. The gate is as it was, and so is
the operation, unless it is a card that ran out itself. -/
def FailedClosed (w₁ : World δ) : Prop :=
  w₁.gate = w.gate ∧ (w₁.row = w.row ∨ a.op.state = .waitingLocalConfirm ∧
    a.op.expiresAt ≤ w.env.now ∧ ∃ op', w₁.holds op' ∧ op'.state = .expired)

variable {a v w}

theorem May.checked (hMay : a.May w) :
    a.cfg.scheme.hex64 a.requestDigest ∧ w.env.now < a.expiry w := by
  have hValid := hMay.valid
  simp only [HumanGateRequest.validate, Bool.and_eq_true, decide_eq_true_eq] at hValid
  exact ⟨hValid.1.1.2, hValid.2⟩

theorem expiry_mono (hLe : v.env.now ≤ w.env.now) : a.expiry v ≤ a.expiry w := by
  unfold expiry minDeadline
  split <;> omega

variable [DecidableEq δ]

/-! ### The gate -/

section

variable (a w)

abbrev gate : Call δ (HumanGateRequest δ) :=
  Mcp.gate a.cfg a.op a.context a.actionDigest (a.expiry w)

end

/-- A request that is there already is taken if it suits, and nothing is changed. -/
theorem gate_found {row : GateRow δ} (hMay : a.May w) (hRow : a.stored w = some row) :
    (a.gate w).run w =
      (if a.Suits w row.request then .ok row.request else .error .checkpointInconsistent, w) := by
  obtain ⟨binding, hBinding⟩ := Option.isSome_iff_exists.mp hMay.binding
  have hDigest : a.cfg.scheme.digest (.request a.op.operationId a.actionDigest) =
    a.requestDigest := rfl
  have hId : a.cfg.scheme.first32 a.requestDigest = a.requestId := rfl
  unfold stored at hRow
  simp only [gate, Mcp.gate, getTaskBinding, now, existingRequest, getRequest, run_bind, run_read,
    run_require, hBinding, orRaise, run_ret, if_false, Bool.false_eq_true, hRow, Option.map_some,
    existingOrCreate, pure_eq_ret, hDigest, hId, Suits, Option.getD_some]
  by_cases hSuits : row.request.suits a.cfg a.context a.actionDigest a.requestDigest a.requestId
    binding (a.expiry w) w.env.now
  · simp only [if_pos hSuits]
  · simp only [if_neg hSuits]

/-- Otherwise it is created. No other state of the gate is passed on the way. -/
theorem gate_created (hMay : a.May w) (hNone : a.stored w = none) :
    (a.gate w).run w = (.ok (a.request w), { w with gate := ⟨a.request w, none⟩ :: w.gate }) ∧
    (a.gate w).Passes
      (fun y => a.stored y = none ∨ a.stored y = some ⟨a.request w, none⟩) w := by
  obtain ⟨binding, hBinding⟩ := Option.isSome_iff_exists.mp hMay.binding
  have hValid := hMay.valid
  have hDigest := hMay.checked.1
  have hNew := gateRow_inserted (a.request w) w
  simp only [stored, request, requestId, requestDigest, hBinding, Option.getD_some]
    at hNone hValid hDigest hNew ⊢
  simp [gate, Mcp.gate, existingRequest, getRequest, orRaise, existingOrCreate, createOrGet,
    createRequest, insertRequest, now, getTaskBinding, run_bind, run_attempt, run_atomic,
    run_require, HumanGateRequest.suits, hBinding, hNone, hValid, hMay.subject, hDigest, hNew,
    passes_bind, passes_read, passes_ret, passes_require, passes_attempt, passes_atomic, committed]

/-! ### Its end -/

section

variable {stored : HumanGateRequest δ} {gate' : List (GateRow δ)} (hMay : a.May w)

include hMay

/-- The operation moves to a request that is still open. -/
theorem ends_open (hGate : (a.gate w).run w = (.ok stored, { w with gate := gate' }))
    (hOpen : w.env.now < stored.expiresAt) :
    ∃ op', a.call.run w = (.ok op', { w with gate := gate', row := some (encode op') }) ∧
      op'.state = .waitingLocalConfirm ∧ op'.gateRequestId = some stored.requestId ∧
      op'.actionDigest = a.actionDigest := by
  have hHeld : World.holds { w with gate := gate' } a.op := hMay.held
  rw [gate, actionDigest, expiry] at hGate
  simp only [renewConfirmation, run_bind, now, orRaise, run_read, run_require,
    run_ret, if_pos hMay.login, if_pos hMay.deadline, if_pos hMay.artifact, hGate,
    if_neg (Int.not_le.mpr hOpen), run_atomic]
  rw [transition_held hHeld (by
    simp [updated, acceptable, succeeding, WorkflowOperation.validate, renewed, advanced,
      hMay.state, hMay.same, hMay.room]; rfl)]
  exact ⟨_, rfl, rfl, rfl, rfl⟩

/-- The renewal fails on one that ran out. -/
theorem ends_expired (hGate : (a.gate w).run w = (.ok stored, w))
    (hExpired : stored.expiresAt ≤ w.env.now) :
    ∃ w₁, a.call.run w = (.error .confirmationExpired, w₁) ∧ a.FailedClosed w w₁ := by
  rw [gate, actionDigest, expiry] at hGate
  simp only [renewConfirmation, run_bind, now, orRaise, run_read, run_require,
    run_ret, if_pos hMay.login, if_pos hMay.deadline, if_pos hMay.artifact, hGate,
    if_pos hExpired]
  split
  · rename_i hCard
    rw [run_bind, run_atomic, transition_held hMay.held (by
      simp [updated, acceptable, succeeding, WorkflowOperation.validate, advanced, hCard.1,
        allowed]; rfl)]
    exact ⟨_, rfl, rfl, .inr ⟨hCard.1, hCard.2, _, rfl, rfl⟩⟩
  · exact ⟨w, rfl, rfl, .inl rfl⟩

/-- It fails as the gate does. -/
theorem ends_refused {e : Failure} (hGate : (a.gate w).run w = (.error e, w)) :
    a.call.run w = (.error e, w) := by
  rw [gate, actionDigest, expiry] at hGate
  simp only [renewConfirmation, run_bind, now, orRaise, run_read, run_require,
    run_ret, if_pos hMay.login, if_pos hMay.deadline, if_pos hMay.artifact, hGate]

end

end Renewal

variable [DecidableEq δ] {a : Renewal δ} {w w' v x : World δ} {pid : Nat}

/-- The stored operation waits for a pending request for its action. -/
structure Reopened (op : WorkflowOperation δ) (w : World δ) : Prop where
  held : w.holds op
  state : op.state = .waitingLocalConfirm
  request : ∃ id row, op.gateRequestId = some id ∧ w.gateRow id = some row ∧
    row.request.actionDigest = op.actionDigest ∧ row.decision = none ∧
    w.env.now < row.request.expiresAt

/-- The call ends with the operation waiting for a pending request. -/
def Reopens (p : Call δ (WorkflowOperation δ)) (w : World δ) : Prop :=
  ∃ op' w₁, p.run w = (.ok op', w₁) ∧ Reopened op' w₁

/-- **When a renewal succeeds.** -/
theorem Renewal.reopens_iff (hMay : a.May w) : Reopens a.call w ↔ a.Unblocked w := by
  cases hRow : a.stored w with
  | none =>
    have hOpen := hMay.checked.2
    obtain ⟨op', hRun, hState, hId, hAction⟩ :=
      ends_open hMay (gate_created hMay hRow).1 hOpen
    refine iff_of_true ⟨op', _, hRun, rfl, hState, _, ⟨a.request w, none⟩, hId,
      gateRow_inserted _ w, hAction.symm, rfl, hOpen⟩ ?_
    intro row hMem
    cases hRow.symm.trans hMem
  | some row =>
    have hGate := gate_found hMay hRow
    constructor
    · rintro ⟨op', w₁, hRun, hOpen⟩ found hFound
      obtain rfl : row = found := Option.some.inj (hRow.symm.trans hFound)
      by_cases hSuits : a.Suits w row.request
      · rw [if_pos hSuits] at hGate
        rcases Int.lt_or_le w.env.now row.request.expiresAt with hLive | hExpired
        · -- the operation waits for this very row, which therefore is undecided
          obtain ⟨op₁, hRun₁, -, hId, -⟩ := ends_open hMay hGate hLive
          cases hRun.symm.trans hRun₁
          obtain ⟨id, waiting, hWaits, hThere, -, hPending, -⟩ := hOpen.request
          obtain rfl : id = row.request.requestId := Option.some.inj (hWaits.symm.trans hId)
          rw [gateRow_id hRow] at hThere
          obtain rfl : row = waiting := Option.some.inj (hRow.symm.trans hThere)
          exact ⟨hPending, hLive, hSuits⟩
        · obtain ⟨w₂, hRun₂, -⟩ := ends_expired hMay hGate hExpired
          cases hRun.symm.trans hRun₂
      · rw [if_neg hSuits] at hGate
        rw [ends_refused hMay hGate] at hRun
        cases hRun
    · intro hFree
      obtain ⟨hPending, hLive, hSuits⟩ := hFree row hRow
      rw [if_pos hSuits] at hGate
      obtain ⟨op', hRun, hState, hId, hAction⟩ := ends_open hMay hGate hLive
      refine ⟨op', _, hRun, rfl, hState, _, row, hId, ?_, ?_, hPending, hLive⟩
      · rw [gateRow_id hRow]
        exact hRow
      · exact hSuits.2.2.2.2.1.trans hAction.symm

/-! ## The calls -/

variable {α : Type} {r : Except Failure α} {body : Call δ α} {w₁ w₂ : World δ}

omit [DecidableEq δ] in
theorem executionGuard_run (hTake : acquireGuard pid w = .ok ((), w₁))
    (hBody : body.run w₁ = (r, w₂)) :
    (executionGuard pid body).run w = (r, releaseGuard pid w₂) := by
  simp [executionGuard, andFinally, run_bind, run_atomic, run_attempt,
    run_ofExcept, hTake, hBody]

omit [DecidableEq δ] in
theorem releaseGuard_eq (pid : Nat) (w : World δ) :
    ∃ g, releaseGuard pid w = { w with guard := g } := by
  unfold releaseGuard
  split
  · exact ⟨none, rfl⟩
  · exact ⟨w.guard, rfl⟩

section

variable (cfg : Config δ) (pid : Nat) (session : Session)

/-- `takeover` passes its checks in `w` and goes on with `op'` in `w'`. -/
def TakesOver (policy : RecoveryPolicy δ) (context : McpAuthorizationContext)
    (op op' : WorkflowOperation δ) (w w' : World δ) : Prop :=
  ∃ w₁, acquireGuard pid w = .ok ((), w₁) ∧ (reloadCurrent op).run w₁ = (.ok op, w₁) ∧
    (recoveryPolicy cfg op).run w₁ = (.ok policy, w₁) ∧
    (takeoverContext (some session) policy op).run w₁ = (.ok context, w₁) ∧
    (closeSending op).run w₁ = (.ok op', w')

/-- The call passes its checks in `w` and comes to a renewal in `w'`. -/
inductive Renews : Call δ (WorkflowOperation δ) → World δ → Renewal δ → World δ → Prop
  | reconcile {policy : RecoveryPolicy δ} {op op' : WorkflowOperation δ} {w w' : World δ}
      {arguments read : Option Json} {data : Json} :
      (owned cfg (some session) op).run w = (.ok (), w) →
      (recoveryPolicy cfg op).run w = (.ok policy, w) →
      op.remoteTool ∉ nonIdempotentTools →
      (recoverSending cfg pid (some session) op).run w = (.ok op', w') →
      op'.state = .unknown ∨ op'.state = .waitingExternalConfirm →
      recoveryArguments policy op' = .ok arguments →
      (verifiedRead cfg op' arguments).run w' = (.ok read, w') →
      w'.env.resolution op' read = .ok (.retryOriginal, data) →
      Renews (reconcile cfg pid (some session) op) w
        ⟨cfg, session, op', op'.context, policy.version⟩ w'
  | takeover {policy : RecoveryPolicy δ} {op op' : WorkflowOperation δ} {w w' : World δ}
      {context : McpAuthorizationContext} :
      TakesOver cfg pid session policy context op op' w w' → op'.sendStarted = false →
      Renews (takeover cfg pid (some session) op) w
        ⟨cfg, session, op', context, policy.version⟩ w'
  | takeoverSent {policy : RecoveryPolicy δ} {op op₁ op₂ : WorkflowOperation δ}
      {w w₁ w₂ w' : World δ} {context : McpAuthorizationContext} {a : Renewal δ} :
      TakesOver cfg pid session policy context op op₁ w w₁ → op₁.sendStarted = true →
      op₁.remoteTool ∉ nonIdempotentTools →
      transition op₁
        { state := .unknown
          renewedContext := some context
          renewedActionDigest := some
            (cfg.scheme.digest (.takeover op₁.actionDigest context policy.version)) } w₁ =
        .ok (op₂, w₂) →
      Renews (reconcile cfg pid (some session) op₂) w₂ a w' →
      Renews (takeover cfg pid (some session) op) w a w'

end

variable {cfg : Config δ} {session : Session} {p : Call δ (WorkflowOperation δ)}

section

variable (hCall : Renews cfg pid session p w a w')

include hCall

/-- A call ends as its renewal does. -/
theorem renews_run {r : Except Failure (WorkflowOperation δ)} {w₁ : World δ}
    (hRun : a.call.run w' = (r, w₁)) : ∃ g, p.run w = (r, { w₁ with guard := g }) := by
  induction hCall with
  | reconcile hOwned hPolicy hTool hClosed hState hArgs hRead hDecision =>
    refine ⟨w₁.guard, ?_⟩
    simp [reconcile, reconcileClosed, run_bind, run_require, run_ofExcept, hOwned,
      hPolicy, hTool, hClosed, hState, hArgs, hRead, hDecision, hRun]
  | takeover hTakes hUnsent =>
    obtain ⟨_, hTaken, hReload, hPolicy, hLogin, hClosed⟩ := hTakes
    obtain ⟨g, hFree⟩ := releaseGuard_eq pid w₁
    refine ⟨g, ?_⟩
    rw [← hFree]
    refine executionGuard_run hTaken ?_
    simp [takeoverLocked, run_bind, run_require, hReload, hPolicy, hLogin, hClosed,
      hUnsent, hRun]
  | takeoverSent hTakes hSent hTool hRebound _ ih =>
    obtain ⟨_, hTaken, hReload, hPolicy, hLogin, hClosed⟩ := hTakes
    obtain ⟨g₁, hInner⟩ := ih hRun
    obtain ⟨g, hFree⟩ := releaseGuard_eq pid { w₁ with guard := g₁ }
    refine ⟨g, ?_⟩
    rw [← hFree]
    refine executionGuard_run hTaken ?_
    simp [takeoverLocked, run_bind, run_require, run_atomic, hReload, hPolicy,
      hLogin, hClosed, hTool, hSent, hRebound, hInner]

theorem renews_reopens : Reopens p w ↔ Reopens a.call w' := by
  constructor
  · rintro ⟨op', w₁, hRun, hOpen⟩
    obtain ⟨g, hCalled⟩ := renews_run hCall rfl
    obtain ⟨hResult, rfl⟩ := Prod.mk.inj (hRun.symm.trans hCalled)
    exact ⟨op', _, Prod.ext hResult.symm rfl, hOpen.held, hOpen.state, hOpen.request⟩
  · rintro ⟨op', w₁, hRun, hOpen⟩
    obtain ⟨g, hCalled⟩ := renews_run hCall hRun
    exact ⟨op', _, hCalled, hOpen.held, hOpen.state, hOpen.request⟩

end

/-! ## After a crash -/

/-- The renewal began in `v`, was interrupted at some point and left `x`. -/
def Renewal.Interrupted (a : Renewal δ) (v x : World δ) : Prop :=
  a.May v ∧ a.stored v = none ∧
    ∃ pid n, x ∈ (a.call.dies (releaseGuard pid) n [v]).head?

/-- It has created its request, or it has not. -/
theorem Renewal.Interrupted.left (hLeft : a.Interrupted v x) :
    a.stored x = none ∨ a.stored x = some ⟨a.request v, none⟩ := by
  obtain ⟨hMay, hNone, pid, n, hDies⟩ := hLeft
  have hAll : a.call.Passes
      (fun y => a.stored y = none ∨ a.stored y = some ⟨a.request v, none⟩) v := by
    obtain ⟨hGate, hPasses⟩ := gate_created hMay hNone
    have hNew := gateRow_inserted (a.request v) v
    unfold call renewConfirmation
    refine passes_bind.mpr ⟨passes_read.mpr (.inl hNone), ?_⟩
    rintro t _ ⟨⟩
    simp only [orRaise, Prog.require, if_pos hMay.login, if_pos hMay.deadline,
      if_pos hMay.artifact, bind_ret]
    refine passes_bind.mpr ⟨hPasses, fun request w₁ hRun => ?_⟩
    cases hRun.symm.trans hGate
    refine passes_bind.mpr ⟨passes_read.mpr (.inr hNew), ?_⟩
    rintro t _ ⟨⟩
    split
    · rename_i hExpired
      exact absurd hExpired (Int.not_le.mpr hMay.checked.2)
    · refine passes_atomic.mpr ⟨.inr hNew, .inr ?_⟩
      rw [stored, World.gateRow, committed_transition]
      exact hNew
  obtain ⟨_, hHead, y, hy, rfl⟩ := hAll.dies (releaseGuard pid) n []
  cases Option.mem_unique hDies hHead
  obtain ⟨g, hFree⟩ := releaseGuard_eq pid y
  rw [hFree]
  exact hy

/-- A later renewal takes the request that was left for its own. -/
theorem Renewal.request_suits (hMay : a.May v) (hLater : v.env.now ≤ w.env.now)
    (hSame : v.env.taskBinding = w.env.taskBinding) : a.Suits w (a.request v) :=
  ⟨rfl, rfl, rfl, rfl, rfl, congrArg (·.getD "") hSame, fun _ => rfl, hMay.checked.1, hLater,
    expiry_mono hLater⟩

namespace Sample

abbrev site : Config SymbolicDigest := config "talk_task_claim"

def owner : Session := { Sample.session with expiresAt := 5000 }

/-- The world at the time `t`, without artifact deadlines. -/
def later (t : Int) (w : World SymbolicDigest) : World SymbolicDigest :=
  { w with env := { w.env with now := t, recoveryDeadline := none } }

/-- A card runs out, and the process that takes it over dies with the request created. -/
def died : List (World SymbolicDigest) :=
  let started := (quiet (start site (some owner)
    { workflowId := "workflow", version := "1", policy := some (policy "talk_task_claim")
      steps := [{ capabilityId := "leaf" }] } "chat" "user" "tenant" (.obj []))).after
    [later 0 (world "talk_task_claim")]
  let expired := (quiet (resume site 1 (some owner) true none)).after
    (Turn.after (.outside (later 600) : Turn _ Failure) started)
  (quiet (withLoaded "a" "tenant" "user" (takeover site 2 (some owner)))).dies (releaseGuard 2) 15
    expired

/-- What it has left, at the time `t`. -/
def abandoned (t : Int) : World SymbolicDigest := later t (died.head?.get rfl)

def card : WorkflowOperation SymbolicDigest :=
  ((abandoned 0).row.get rfl).encryptedPayload.payload

theorem abandoned_runs (t : Int) : ∃ ps, ServiceRun site (abandoned t :: died) ps := by
  have hInit : ServiceRun site [later 0 (world "talk_task_claim")] fun _ => none :=
    .start ⟨rfl, rfl, rfl⟩
  obtain ⟨ps, hStarted, hFree⟩ := hInit.call 0 (fun _ _ => rfl) (.start ..)
  obtain ⟨ps', hExpired, hFree'⟩ := (hStarted.outside fun w => .change w _).call 1
    (fun j hj => hFree j hj) (.resume ..)
  obtain ⟨ps'', hDied⟩ : ∃ ps, ServiceRun site died ps :=
    (hExpired.spawn (hFree' 2 (by decide)) (.takeover ..)).dies 15 (Function.update_self ..)
  exact ⟨ps'', PoolRun.env hDied (.change _ _)⟩

end Sample

end EternalAI.Mcp
