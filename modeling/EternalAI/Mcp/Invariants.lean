import EternalAI.Mcp.Refinement

/-!
# Governed MCP operations — invariants of the stored operation

What holds of the stored operation in every state of every interleaving of
service calls.

* `Effect` — what each kind of transition does to the fields that matter.
* `FlagAgrees`, `AttemptsFresh` — the invariants: the send flag agrees with the
  state, and attempt ids are fresh and used once.
* `stored_operation_coherent` — both for every interleaving of service calls,
  with the round trip of the stored row.
-/

namespace EternalAI.Mcp

open Lib List

variable {δ : Type} {op op' : WorkflowOperation δ}

/-! ## Effects of transitions -/

/-- The fields that only a renewal or a new attempt changes. -/
structure Kept (op op' : WorkflowOperation δ) : Prop where
  attemptId : op'.attemptId = op.attemptId
  previousAttempts : op'.previousAttempts = op.previousAttempts
  actionDigest : op'.actionDigest = op.actionDigest
  gateRequestId : op'.gateRequestId = op.gateRequestId

variable {args : TransitionArgs δ} {requestId : String} {w w' : World δ} {t : List (World δ)}

private theorem kept_advanced (hAttempt : args.attemptId = none)
    (hGate : args.gateRequestId = none) :
    Kept op (advanced op args) := by
  constructor <;> simp [advanced, truthy, hAttempt, hGate]

private theorem allowed_of_acceptable (hAcc : acceptable op args = true)
    (hCode : args.confirmationErrorCode = none) : args.state ∈ allowed op.state := by
  simp only [acceptable, hCode, Option.isNone_none, Option.isSome_none, Bool.true_or,
    Bool.and_false, Bool.or_false, Bool.true_and, Bool.and_eq_true] at hAcc
  simpa using hAcc.1

private theorem room_of_acceptable (hAcc : acceptable op args = true)
    (hRenew : args.renewedActionDigest.isSome = true) : op.previousAttempts.length < 10 := by
  simp only [acceptable, hRenew, if_true, Bool.and_eq_true, decide_eq_true_eq] at hAcc
  exact hAcc.2.1.2

private theorem allowed_settled {s s' : OperationState}
    (hTo : s' ∈ [.unknown, .verifiedSuccess, .waitingExternalConfirm, .failed])
    (hAllowed : s' ∈ allowed s) : s ∈ [.sending, .waitingExternalConfirm, .unknown] := by
  cases s <;> cases s' <;> simp_all [allowed]

variable {attemptId : String}

theorem ready_effect (hUpd : updated op (readyArgs requestId attemptId) = .ok op') :
    op'.state = .ready ∧ op'.sendStarted = op.sendStarted ∧
    op'.previousAttempts = op.previousAttempts ∧ op'.actionDigest = op.actionDigest := by
  obtain ⟨-, -, rfl⟩ := updated_ok hUpd
  simp [succeeding, advanced, readyArgs]

theorem ready_attemptId (hNe : attemptId ≠ "")
    (hUpd : updated op (readyArgs requestId attemptId) = .ok op') :
    op'.attemptId = some attemptId := by
  obtain ⟨-, -, rfl⟩ := updated_ok hUpd
  simp [succeeding, advanced, readyArgs, truthy, hNe]

variable [DecidableEq δ] {cfg : Config δ} {h : List (World δ)}

/-- The action digest of a renewed card: the old one, or one that names the
revision of the renewal. -/
inductive Rekeyed (cfg : Config δ) (op : WorkflowOperation δ) (d : δ) : Prop
  | same : op.state = .waitingLocalConfirm → d = op.actionDigest → Rekeyed cfg op d
  | rebind (context : McpAuthorizationContext) : op.state = .waitingLocalConfirm →
      d = cfg.scheme.digest (.rebind op.actionDigest op.revision context) → Rekeyed cfg op d
  | renewal (context : McpAuthorizationContext) (policyVersion : String) :
      (op.sendStarted = true → op.remoteTool ∉ nonIdempotentTools) →
      d = cfg.scheme.digest (.renewal op.actionDigest op.revision context policyVersion) →
      Rekeyed cfg op d

inductive Effect (cfg : Config δ) (h : List (World δ)) (op op' : WorkflowOperation δ) : Prop
  | close : op.state = .waitingLocalConfirm ∨ op.state = .ready →
      op'.state ∈ [.expired, .cancelled, .failed] → Kept op op' →
      op'.sendStarted = op.sendStarted → Effect cfg h op op'
  | send : op.state = .ready → op'.state = .sending → Kept op op' → op'.sendStarted = true →
      Authorised h op → Effect cfg h op op'
  | settle : op.state ∈ [.sending, .waitingExternalConfirm, .unknown] →
      op'.state ∈ [.unknown, .verifiedSuccess, .waitingExternalConfirm, .failed] →
      Kept op op' → op'.sendStarted = op.sendStarted → Effect cfg h op op'
  | renew : op'.state = .waitingLocalConfirm → Rekeyed cfg op op'.actionDigest →
      op'.attemptId = none → op'.sendStarted = false → op.previousAttempts.length < 10 →
      op'.previousAttempts = op.previousAttempts ++ (truthy op.attemptId).toList →
      Effect cfg h op op'
  | takeover (context : McpAuthorizationContext) (policyVersion : String) :
      op'.state = .unknown → op.sendStarted = true → op'.sendStarted = true →
      op'.attemptId = op.attemptId → op'.previousAttempts = op.previousAttempts →
      op'.actionDigest = cfg.scheme.digest (.takeover op.actionDigest context policyVersion) →
      Effect cfg h op op'

private theorem effect_renewed {d : δ} (hState : args.state = .waitingLocalConfirm)
    (hDigest : args.renewedActionDigest = some d) (hRekeyed : Rekeyed cfg op d)
    (hUpd : updated op args = .ok op') : Effect cfg h op op' := by
  obtain ⟨hAcc, -, rfl⟩ := updated_ok hUpd
  refine .renew ?_ ?_ ?_ ?_ (room_of_acceptable hAcc (by simp [hDigest])) ?_ <;>
    simp [succeeding, renewed, advanced, hState, hDigest, hRekeyed]

theorem Permitted.effect (hPerm : Permitted cfg h op args) (hUpd : updated op args = .ok op') :
    Effect cfg h op op' := by
  have hOk := updated_ok hUpd
  cases hPerm with
  | expire hState =>
    obtain ⟨-, -, rfl⟩ := hOk
    exact .close hState (by simp [succeeding, advanced]) (kept_advanced rfl rfl)
      (by simp [succeeding, advanced])
  | cancel =>
    -- whatever the caller has checked, the table of transitions lets two states be cancelled
    obtain ⟨hAcc, -, rfl⟩ := hOk
    have hAllowed := allowed_of_acceptable hAcc rfl
    refine .close ?_ (by simp [succeeding, advanced]) (kept_advanced rfl rfl)
      (by simp [succeeding, advanced])
    cases hs : op.state <;> simp [allowed, hs] at hAllowed ⊢
  | abandon code =>
    -- a confirmation error is accepted beside the table, before anything was sent only
    obtain ⟨hAcc, -, rfl⟩ := hOk
    have hOpen : op.state = .waitingLocalConfirm ∨ op.state = .ready := by
      simp [acceptable] at hAcc
      exact hAcc.1
    exact .close hOpen (by simp [succeeding, advanced]) (kept_advanced rfl rfl)
      (by simp [succeeding, advanced])
  | send hAuth =>
    obtain ⟨hAcc, -, rfl⟩ := hOk
    have hAllowed := allowed_of_acceptable hAcc rfl
    refine .send ?_ (by simp [succeeding, advanced]) (kept_advanced rfl rfl)
      (by simp [succeeding, advanced]) hAuth
    cases hs : op.state <;> simp [allowed, hs] at hAllowed ⊢
  | settle state safeOutput publicResult reviewUrl hState =>
    obtain ⟨hAcc, -, rfl⟩ := hOk
    have hAllowed := allowed_of_acceptable hAcc rfl
    have hNotSending : state ≠ .sending := by rintro rfl; simp at hState
    exact .settle (allowed_settled hState hAllowed)
      (by simpa [succeeding, advanced] using hState) (kept_advanced rfl rfl)
      (by simp [succeeding, advanced, hNotSending])
  | adopt requestId expiresAt hState => exact effect_renewed rfl rfl (.same hState rfl) hUpd
  | rebind context requestId expiresAt hState =>
    exact effect_renewed rfl rfl (.rebind context hState rfl) hUpd
  | renew context policyVersion requestId expiresAt hTool =>
    exact effect_renewed rfl rfl (.renewal context policyVersion hTool rfl) hUpd
  | takeover context policyVersion hSent =>
    obtain ⟨-, -, rfl⟩ := hOk
    refine .takeover context policyVersion ?_ hSent ?_ ?_ ?_ ?_ <;>
      simp [succeeding, renewed, advanced, hSent]

/-! ## The invariant -/

/-- `uuid4` gives out every id once, and none is empty. -/
structure FreshIds (cfg : Config δ) : Prop where
  injective : Function.Injective cfg.uuid
  nonempty : ∀ n, cfg.uuid n ≠ ""

structure FlagAgrees (op : WorkflowOperation δ) : Prop where
  unsent : op.state ∈ [.ready, .waitingLocalConfirm, .cancelled, .expired] →
    op.sendStarted = false
  sent : op.state ∈ [.sending, .unknown, .waitingExternalConfirm, .verifiedSuccess] →
    op.sendStarted = true

def Drawn (cfg : Config δ) (w : World δ) (id : String) : Prop := ∃ n < w.drawn, id = cfg.uuid n

/-- Attempt ids were all given out, the current one is new, the previous ones
are distinct, and there are not too many of them. -/
structure AttemptsFresh (cfg : Config δ) (w : World δ) (op : WorkflowOperation δ) : Prop where
  waiting : op.state = .waitingLocalConfirm → op.attemptId = none
  ready : op.state = .ready → op.attemptId ≠ none
  current : ∀ a, op.attemptId = some a → Drawn cfg w a ∧ a ∉ op.previousAttempts
  previous : ∀ a ∈ op.previousAttempts, Drawn cfg w a
  distinct : op.previousAttempts.Nodup
  bounded : op.previousAttempts.length ≤ 10

omit [DecidableEq δ] in
theorem Drawn.mono {id : String} (hDrawn : Drawn cfg w id) (hLe : w.drawn ≤ w'.drawn) :
    Drawn cfg w' id := by
  obtain ⟨n, hn, hEq⟩ := hDrawn
  exact ⟨n, by omega, hEq⟩

omit [DecidableEq δ] in
theorem AttemptsFresh.mono (hFresh : AttemptsFresh cfg w op) (hLe : w.drawn ≤ w'.drawn) :
    AttemptsFresh cfg w' op :=
  { hFresh with
    current := fun a ha => ⟨(hFresh.current a ha).1.mono hLe, (hFresh.current a ha).2⟩
    previous := fun a ha => (hFresh.previous a ha).mono hLe }

omit [DecidableEq δ] in
theorem Created.flag (hNew : Created cfg op) : FlagAgrees op where
  unsent := fun _ => hNew.sendStarted
  sent := fun hState => by simp [hNew.state] at hState

omit [DecidableEq δ] in
theorem Created.attempts (hNew : Created cfg op) : AttemptsFresh cfg w op where
  waiting := fun _ => hNew.attemptId
  ready := fun hState => by simp [hNew.state] at hState
  current := fun a ha => by simp [hNew.attemptId] at ha
  previous := fun a ha => by simp [hNew.previousAttempts] at ha
  distinct := by simp [hNew.previousAttempts]
  bounded := by simp [hNew.previousAttempts]

theorem Effect.flag (hEff : Effect cfg h op op') (hFlag : FlagAgrees op) : FlagAgrees op' := by
  cases hEff with
  | close hFrom hTo hKept hSent =>
    have hUnsent : op'.sendStarted = false := by
      rw [hSent]
      exact hFlag.unsent (by rcases hFrom with hs | hs <;> simp [hs])
    refine ⟨fun _ => hUnsent, fun hState => ?_⟩
    cases hs : op'.state <;> simp [hs] at hTo hState
  | send hFrom hTo hKept hSent hAuth => exact ⟨by simp [hTo], fun _ => hSent⟩
  | settle hFrom hTo hKept hSent =>
    have hStarted : op'.sendStarted = true := by
      rw [hSent]
      exact hFlag.sent (by cases hs : op.state <;> simp [hs] at hFrom ⊢)
    refine ⟨fun hState => ?_, fun _ => hStarted⟩
    cases hs : op'.state <;> simp [hs] at hTo hState
  | renew hTo hKey hAttempt hSent hRoom hPrev => exact ⟨fun _ => hSent, by simp [hTo]⟩
  | takeover context version hTo hFrom hSent hAttempt hPrev hDigest =>
    exact ⟨by simp [hTo], fun _ => hSent⟩

omit [DecidableEq δ] in
private theorem AttemptsFresh.kept (hFresh : AttemptsFresh cfg w op)
    (hAttempt : op'.attemptId = op.attemptId) (hPrev : op'.previousAttempts = op.previousAttempts)
    (hWaiting : op'.state ≠ .waitingLocalConfirm) (hReady : op'.state ≠ .ready) :
    AttemptsFresh cfg w op' where
  waiting := fun hs => absurd hs hWaiting
  ready := fun hs => absurd hs hReady
  current := by rw [hAttempt, hPrev]; exact hFresh.current
  previous := by rw [hPrev]; exact hFresh.previous
  distinct := by rw [hPrev]; exact hFresh.distinct
  bounded := by rw [hPrev]; exact hFresh.bounded

private theorem mem_truthy {id : Option String} {a : String} (ha : a ∈ (truthy id).toList) :
    id = some a := by
  unfold truthy at ha
  split at ha
  · split at ha <;> simp at ha
    rw [ha]
  · simp at ha

theorem Effect.attempts (hEff : Effect cfg h op op') (hFresh : AttemptsFresh cfg w op) :
    AttemptsFresh cfg w op' := by
  cases hEff with
  | close hFrom hTo hKept hSent | settle hFrom hTo hKept hSent =>
    exact hFresh.kept hKept.attemptId hKept.previousAttempts
      (fun hs => by simp [hs] at hTo) fun hs => by simp [hs] at hTo
  | send hFrom hTo hKept hSent hAuth =>
    exact hFresh.kept hKept.attemptId hKept.previousAttempts (by simp [hTo]) (by simp [hTo])
  | takeover context version hTo hFrom hSent hAttempt hPrev hDigest =>
    exact hFresh.kept hAttempt hPrev (by simp [hTo]) (by simp [hTo])
  | renew hTo hKey hAttempt hSent hRoom hPrev =>
    refine ⟨fun _ => hAttempt, by simp [hTo], by simp [hAttempt], ?_, ?_, ?_⟩
    · rw [hPrev]
      intro a ha
      rcases mem_append.mp ha with ha | ha
      · exact hFresh.previous a ha
      · exact (hFresh.current a (mem_truthy ha)).1
    · -- the attempt that ends was not among the previous ones
      rw [hPrev]
      refine nodup_append.mpr ⟨hFresh.distinct, ?_, ?_⟩
      · cases truthy op.attemptId <;> simp
      · rintro a ha b hb rfl
        exact (hFresh.current a (mem_truthy hb)).2 ha
    · -- a renewal is refused where ten attempts have ended
      have hOne := Option.length_toList_le (o := truthy op.attemptId)
      rw [hPrev, length_append]
      omega

omit [DecidableEq δ] in
theorem ready_flag (hFlag : FlagAgrees op) (hState : op.state = .waitingLocalConfirm)
    (hUpd : updated op (readyArgs requestId attemptId) = .ok op') : FlagAgrees op' := by
  obtain ⟨hTo, hSent, -, -⟩ := ready_effect hUpd
  refine ⟨fun _ => ?_, by simp [hTo]⟩
  rw [hSent]
  exact hFlag.unsent (by simp [hState])

omit [DecidableEq δ] in
theorem ready_attempts (hIds : FreshIds cfg) (hFresh : AttemptsFresh cfg w op)
    (hDraw : w'.drawn = w.drawn + 1)
    (hUpd : updated op (readyArgs requestId (cfg.uuid w.drawn)) = .ok op') :
    AttemptsFresh cfg w' op' := by
  obtain ⟨hTo, -, hPrev, -⟩ := ready_effect hUpd
  have hAttempt := ready_attemptId (hIds.nonempty _) hUpd
  refine ⟨by simp [hTo], by simp [hAttempt], ?_, ?_, ?_, ?_⟩
  · intro a ha
    rw [hAttempt] at ha
    cases ha
    refine ⟨⟨w.drawn, by omega, rfl⟩, fun hOld => ?_⟩
    -- a previous id was drawn earlier, so it is not the new one
    rw [hPrev] at hOld
    obtain ⟨n, hn, hEq⟩ := hFresh.previous _ hOld
    have := hIds.injective hEq
    omega
  · rw [hPrev]
    exact fun a ha => (hFresh.previous a ha).mono (by omega)
  · rw [hPrev]
    exact hFresh.distinct
  · rw [hPrev]
    exact hFresh.bounded

/-! ## Runs -/

theorem Step.drawn_le (hStep : Step cfg (w :: t) w') : w.drawn ≤ w'.drawn := by
  cases hStep <;> simp [recordDecision]

theorem Runs.drawn_le (hRun : Runs cfg (w :: t)) : ∀ x ∈ w :: t, x.drawn ≤ w.drawn :=
  Run.rel_head (R := fun x y : World δ => x.drawn ≤ y.drawn) (fun _ => Nat.le_refl _)
    Nat.le_trans (fun _ _ _ hStep => hStep.drawn_le) hRun

variable {h : List (World δ)}

/-- What is created with an operation, and kept by its transitions, holds throughout a run. -/
theorem Runs.op_inv {P : WorkflowOperation δ → Prop} (hNew : ∀ {op}, Created cfg op → P op)
    (hEff : ∀ {h op op'}, Effect cfg h op op' → op'.revision = op.revision + 1 → P op → P op')
    (hReady : ∀ {op op' requestId attemptId}, op.state = .waitingLocalConfirm →
      updated op (readyArgs requestId attemptId) = .ok op' → P op → P op')
    (hRun : Runs cfg h) : ∀ w ∈ h, ∀ op, w.holds op → P op := by
  refine Run.mem_inv ?_ (fun w t w' ih hStep op' hOp' => ?_) hRun
  · intro w hInit op hOp
    rw [World.holds, hInit.1] at hOp
    cases hOp
  · rcases hStep.row_cases with hSame | ⟨op, -, hCreated, hOp⟩ |
      ⟨op, op₁, args, hOp, hOp₁, hUpd, hPerm⟩ | ⟨op, op₁, requestId, hOp, hOp₁, hState, hUpd⟩
    · exact ih op' (hSame.symm.trans hOp')
    · rw [World.holds_unique hOp' hOp]
      exact hNew hCreated
    · rw [World.holds_unique hOp' hOp₁]
      exact hEff (hPerm.effect hUpd) (updated_revision hUpd) (ih op hOp)
    · rw [World.holds_unique hOp' hOp₁]
      exact hReady hState hUpd (ih op hOp)

theorem Runs.flag (hRun : Runs cfg h) : ∀ w ∈ h, ∀ op, w.holds op → FlagAgrees op :=
  hRun.op_inv Created.flag (fun hEff _ hFlag => hEff.flag hFlag)
    fun hState hUpd hFlag => ready_flag hFlag hState hUpd

theorem Runs.attempts (hIds : FreshIds cfg) (hRun : Runs cfg h) :
    ∀ w ∈ h, ∀ op, w.holds op → AttemptsFresh cfg w op := by
  refine Run.mem_inv ?_ (fun w t w' hFresh hStep op' hOp' => ?_) hRun
  · intro w hInit op hOp
    rw [World.holds, hInit.1] at hOp
    cases hOp
  · have hLe := hStep.drawn_le
    cases hStep with
    | idle | env | guard | draw | request | decide => exact (hFresh op' hOp').mono hLe
    | create _ _ op hNone hNew =>
      obtain rfl := encode_injective (Option.some.inj hOp')
      exact hNew.attempts
    | advance _ _ op op₁ args hHolds hPerm hUpd =>
      obtain rfl := encode_injective (Option.some.inj hOp')
      exact ((hPerm.effect hUpd).attempts (hFresh op hHolds)).mono hLe
    | ready _ _ op op₁ requestId hHolds hState hUpd =>
      obtain rfl := encode_injective (Option.some.inj hOp')
      exact ready_attempts hIds (hFresh op hHolds) rfl hUpd

/-! ## The stored operation -/

def Final (w w' : World δ) : Prop :=
  ∀ op, w.holds op → op.state ∈ terminalStates → w'.holds op

theorem Step.final (hStep : Step cfg (w :: t) w') : Final w w' := by
  intro op hOp hTerm
  rcases hStep.holds_cases hOp with hSame | ⟨op', args, -, hUpd⟩
  · exact hSame
  · exact absurd hTerm (updated_not_terminal hUpd)

theorem Runs.final (hRun : Runs cfg (w :: t)) : ∀ x ∈ w :: t, Final x w :=
  Run.rel_head (fun _ _ hOp _ => hOp)
    (fun hab hbc op hOp hTerm => hbc op (hab op hOp hTerm) hTerm)
    (fun _ _ _ hStep => hStep.final) hRun

/-- The row is that of `op`, reads back as `op`, and `op` is coherent. -/
structure StoredAs (row : OperationRow δ) (op : WorkflowOperation δ) : Prop where
  written : row = encode op
  reads : decode row = .ok op
  unsent : op.state ∈ [.ready, .waitingLocalConfirm, .cancelled, .expired] →
    op.sendStarted = false
  sent : op.state ∈ [.sending, .unknown, .waitingExternalConfirm, .verifiedSuccess] →
    op.sendStarted = true
  distinct : op.previousAttempts.Nodup
  bounded : op.previousAttempts.length ≤ 10
  current : ∀ a, op.attemptId = some a → a ∉ op.previousAttempts

theorem Runs.storedAs (hIds : FreshIds cfg) (hRun : Runs cfg h) (hw : w ∈ h) {row : OperationRow δ}
    (hRow : w.row = some row) : ∃ op, StoredAs row op := by
  obtain ⟨op, hHolds, hValid⟩ := (Runs.stored hRun w hw).holds hRow
  have hFlag := Runs.flag hRun w hw op hHolds
  have hAttempts := Runs.attempts hIds hRun w hw op hHolds
  have hEnc : row = encode op := Option.some.inj (hRow.symm.trans hHolds)
  exact ⟨op,
    { written := hEnc
      reads := by rw [hEnc, decode_encode hValid]
      unsent := hFlag.unsent
      sent := hFlag.sent
      distinct := hAttempts.distinct
      bounded := hAttempts.bounded
      current := fun a ha => (hAttempts.current a ha).2 }⟩

theorem Step.revision (hStep : Step cfg (w :: t) w') (hNe : w'.row ≠ w.row) (hOp : w.holds op) :
    ∃ op', w'.holds op' ∧ op'.revision = op.revision + 1 := by
  rcases hStep.holds_cases hOp with hSame | ⟨op', args, hOp', hUpd⟩
  · exact absurd (hSame.trans hOp.symm) hNe
  · exact ⟨op', hOp', updated_revision hUpd⟩

/--
**The stored operation.** In every state of every interleaving of service calls,
the stored row is that of an operation, reads back as that operation, and the
operation is coherent. Every commit to it raises its revision; a terminal
operation is never changed again; and what a transition or a `create` returns is
what the row it has written reads back as.
-/
theorem stored_operation_coherent (hIds : FreshIds cfg) {h : List (World δ)}
    {ps : Procs (World δ) Failure} (hPool : ServiceRun cfg h ps) :
    (∀ w ∈ h, ∀ row, w.row = some row → ∃ op, StoredAs row op) ∧
    (∀ w' w t, w' :: w :: t <:+ h → w'.row ≠ w.row → ∀ op, w.holds op →
      ∃ op', w'.holds op' ∧ op'.revision = op.revision + 1) ∧
    (∀ w' t, w' :: t <:+ h → ∀ w ∈ t, ∀ op, w.holds op →
      op.state ∈ [.verifiedSuccess, .failed, .cancelled] → w'.holds op) ∧
    (∀ w ∈ h, ∀ op args op' w', transition op args w = .ok (op', w') →
      ∃ row, w'.row = some row ∧ decode row = .ok op') ∧
    (∀ w ∈ h, ∀ op op' w', op.validate = true → create op w = .ok (op', w') →
      op' = op ∧ ∃ row, w'.row = some row ∧ decode row = .ok op) := by
  have hRun := hPool.runs
  refine ⟨fun w hw row hRow => Runs.storedAs hIds hRun hw hRow, ?_, ?_, ?_, ?_⟩
  · intro w' w t hSuf hNe op hOp
    exact (Run.last_step (hRun.of_suffix hSuf)).revision hNe hOp
  · intro w' t hSuf w hw op hOp hTerm
    exact Runs.final (hRun.of_suffix hSuf) w (mem_cons_of_mem _ hw) op hOp hTerm
  · exact fun w _ op args op' w' hTrans => transition_reads_back hTrans
  · exact fun w _ op op' w' hValid hCreate => create_reads_back hValid hCreate

/-! ## A sample deployment -/

namespace Sample

section

variable (tool : String)

def policy : GovernedWorkflowPolicy :=
  { serviceConfigId := "service"
    outerCapabilityId := "workflow"
    leafCapabilityId := "leaf"
    remoteTool := tool
    version := "1"
    recoveryCapabilityId := some "read" }

/-- A deployment with symbolic digests and one registered workflow. -/
def config : Config SymbolicDigest where
  scheme :=
    { digest := .of
      first32 := fun
        | .request _ (.action ..) => "first"
        | _ => "second"
      hex64 := fun _ => true }
  uuid := fun n => String.ofList (List.replicate (n + 1) 'a')
  taskId := "task"
  manifests := fun _ => some (policy tool)
  recoveryPolicies := fun _ _ => some
    { approved := true, version := "1", sameSubject := fun _ _ => true, recordId := fun _ => none }
  submitPreconditions := fun _ _ => none

/-- Everything is in order, except that no send is ever acknowledged. -/
def world : World SymbolicDigest where
  env :=
    { now := 0
      taskBinding := some (String.ofList (List.replicate 64 'a'))
      task := some ("tenant", "user", "chat")
      connection := fun _ _ _ => some
        { connectionId := "connection", registrationId := "registration"
          serviceConfigVersion := 1, bindingEpoch := 0, grantEpoch := 0
          loginSessionFingerprint := "login", state := "ACTIVE"
          identityEvidence := some "evidence", expiresAt := none }
      mapping := fun _ _ => some
        { capabilityId := "leaf", capabilityVersion := "1", serviceConfigId := "service"
          remoteTool := tool, inputDigest := "", safetyDigest := ""
          outputContractVersion := "", policyVersion := "", internalOnly := true }
      resolves := fun _ => true
      policyConfirms := true
      inputValid := fun _ _ => true
      preview := []
      submitDeadline := none
      recoveryDeadline := some { instant := 1000 }
      guardAvailable := true
      gatewayStops := none
      gatewayReply := fun _ _ => .ok { completed := false }
      recoveryRead := fun _ _ => .ok (some (.obj []))
      resolution := fun _ _ => .ok (.retryOriginal, .obj []) }

def session : Session :=
  { aiUserId := "user", tenantId := "tenant", fingerprint := "login", expiresAt := 1000 }

def approve : List (World SymbolicDigest) → List (World SymbolicDigest)
  | w :: t => match w.gate with
    | row :: _ => recordDecision
        { requestId := row.request.requestId
          taskId := row.request.taskId
          decidedByAiUserId := row.request.requestedForAiUserId
          decidedSessionId := row.request.requestedSessionId
          decidedTenantId := row.request.requestedTenantId
          decision := .confirmed
          requestDigest := row.request.requestDigest
          bindingManifestDigest := row.request.bindingManifestDigest
          decidedAt := 0 } w :: w :: t
    | [] => w :: t
  | [] => []

def currentAction (h : List (World SymbolicDigest)) : Option SymbolicDigest :=
  h.head?.bind fun w => w.row.map fun row => row.encryptedPayload.payload.actionDigest

/-- `start`, a confirmation, and `resume`: the action is sent, its outcome unknown. -/
def sent : List (World SymbolicDigest) :=
  let started := (quiet (start (config tool) (some session)
    { workflowId := "workflow", version := "1", policy := some (policy tool)
      steps := [{ capabilityId := "leaf" }] } "chat" "user" "tenant" (.obj []))).after [world tool]
  let approved := approve started
  (quiet (resume (config tool) 1 (some session) true (currentAction approved))).after approved

/-- `reconcile` asks for a new confirmation, and the action is sent once more. -/
def resent : List (World SymbolicDigest) :=
  let renewed := (quiet (withLoaded "a" "tenant" "user"
    (reconcile (config tool) 2 (some session)))).after (sent tool)
  let approved := approve renewed
  (quiet (resume (config tool) 3 (some session) true (currentAction approved))).after approved

theorem freshIds : FreshIds (config tool) where
  injective := fun m n hEq => by
    have := congrArg (fun s : String => s.toList.length) hEq
    simpa [config] using this
  nonempty := fun n => by
    simp [config, String.ext_iff]

theorem approve_runs {tool : String} {h : List (World SymbolicDigest)}
    {ps : Procs (World SymbolicDigest) Failure} (hPool : ServiceRun (config tool) h ps) :
    ServiceRun (config tool) (approve h) ps := by
  unfold approve
  split
  · split
    · exact hPool.env (.decide _ _)
    · exact hPool
  · exact hPool

theorem sent_runs : ∃ ps, ServiceRun (config tool) (sent tool) ps ∧
    ∀ j, 1 < j → ps j = none := by
  have hInit : ServiceRun (config tool) [world tool] fun _ => none :=
    .start ⟨rfl, rfl, rfl⟩
  obtain ⟨ps, hStarted, hFree⟩ := hInit.call 0 (fun _ _ => rfl) (.start ..)
  obtain ⟨ps', hSent, hFree'⟩ := (approve_runs hStarted).call 1 (fun j hj => hFree j hj)
    (.resume ..)
  exact ⟨ps', hSent, hFree'⟩

theorem resent_runs : ∃ ps, ServiceRun (config tool) (resent tool) ps := by
  obtain ⟨ps, hSent, hFree⟩ := sent_runs tool
  obtain ⟨ps', hRenewed, hFree'⟩ := hSent.call 2 (fun j hj => hFree j hj) (.reconcile ..)
  obtain ⟨ps'', hResent, -⟩ := (approve_runs hRenewed).call 3 (fun j hj => hFree' j hj)
    (.resume ..)
  exact ⟨ps'', hResent⟩

end

end Sample

/-- The sample run ends with a stored operation, which is coherent. -/
theorem stored_operation_coherent_sample :
    ∃ w t row, Sample.resent "talk_task_claim" = w :: t ∧ w.row = some row ∧
      ∃ op, StoredAs row op := by
  obtain ⟨ps, hPool⟩ := Sample.resent_runs "talk_task_claim"
  have hAll := (stored_operation_coherent (Sample.freshIds _) hPool).1
  have hRow : (Sample.resent "talk_task_claim").head?.any (·.row.isSome) = true := by
    decide +kernel
  cases hRun : Sample.resent "talk_task_claim" with
  | nil => simp [hRun] at hRow
  | cons w t =>
    rw [hRun] at hRow hAll
    obtain ⟨row, hSome⟩ := Option.isSome_iff_exists.mp (by simpa using hRow)
    exact ⟨w, t, row, rfl, hSome, hAll w mem_cons_self row hSome⟩

end EternalAI.Mcp
