import EternalAI.Lib.Except
import EternalAI.Mcp.Service

/-!
# Governed MCP operations — what a step can do

The coordinator is many procedures; what they do to the shared state is little.
`Step` says it once: the steps of a history, with the guards under which the
code takes them. `Permitted` lists the transitions the code ever asks the store
for. Everything else in the development is proved from these two, and
`Refinement.lean` proves that the procedures take no other step.
-/

namespace EternalAI.Mcp

open Lib

variable {δ : Type}

/-! ## Rows -/

/-- The row of the world is that of the operation `op`. -/
def World.holds (w : World δ) (op : WorkflowOperation δ) : Prop := w.row = some (encode op)

/-- The operation was the stored one at some point of the history. -/
def Seen (h : List (World δ)) (op : WorkflowOperation δ) : Prop := ∃ w ∈ h, w.holds op

variable {op op' : WorkflowOperation δ} {args : TransitionArgs δ}

variable {h h' : List (World δ)}

theorem Seen.mono (hSeen : Seen h op) (hExt : h <:+ h') : Seen h' op := by
  obtain ⟨w, hw, hHolds⟩ := hSeen
  exact ⟨w, hExt.subset hw, hHolds⟩

/-- An operation that was read after the history `h`: it was stored, and it is
about the same tool as what was stored in `h`. -/
def Reread (h h' : List (World δ)) (op : WorkflowOperation δ) : Prop :=
  Seen h' op ∧ ∀ op₀, Seen h op₀ → op.remoteTool = op₀.remoteTool

theorem Reread.mono {h₁ h₂ : List (World δ)} (hRead : Reread h h₁ op) (hExt : h₁ <:+ h₂) :
    Reread h h₂ op :=
  ⟨hRead.1.mono hExt, hRead.2⟩

theorem decode_encode (hValid : op.validate = true) : decode (encode op) = .ok op := by
  simp [decode, encode, OperationRow.aad, aad, hValid]

theorem eq_of_decode_encode {r : WorkflowOperation δ} (hDec : decode (encode op) = .ok r) :
    r = op := by
  by_cases hValid : op.validate = true
  · rw [decode_encode hValid] at hDec
    exact (Except.ok.inj hDec).symm
  · simp [decode, encode, OperationRow.aad, aad, hValid] at hDec

theorem encode_injective (hEq : encode op = encode op') : op = op' :=
  congrArg (fun row : OperationRow δ => row.encryptedPayload.payload) hEq

variable {w : World δ}

theorem World.holds_unique (hOp : w.holds op) (hOp' : w.holds op') : op = op' :=
  encode_injective (Option.some.inj (hOp.symm.trans hOp'))

theorem updated_ok (hUpd : updated op args = .ok op') :
    acceptable op args = true ∧ op'.validate = true ∧ op' = succeeding op args := by
  obtain ⟨hAcc, hUpd⟩ := refuse_ok.mp hUpd
  obtain ⟨hValid, hUpd⟩ := refuse_ok.mp hUpd
  rw [← Except.ok.inj hUpd]
  exact ⟨by simpa using hAcc, by simpa using hValid, rfl⟩

structure SameProposal (op op' : WorkflowOperation δ) : Prop where
  operationId : op'.operationId = op.operationId
  outerCapabilityId : op'.outerCapabilityId = op.outerCapabilityId
  outerVersion : op'.outerVersion = op.outerVersion
  remoteTool : op'.remoteTool = op.remoteTool
  tenantId : op'.context.tenantId = op.context.tenantId
  userId : op'.context.userId = op.context.userId
  serviceConfigId : op'.context.serviceConfigId = op.context.serviceConfigId
  taskId : op'.context.taskId = op.context.taskId

theorem updated_sameProposal (hUpd : updated op args = .ok op') : SameProposal op op' := by
  obtain ⟨hAcc, -, rfl⟩ := updated_ok hUpd
  cases hDig : args.renewedActionDigest with
  | none =>
    simp only [succeeding, hDig]
    constructor <;> rfl
  | some actionDigest =>
    have hSame : sameBinding (args.renewedContext.getD op.context) op.context = true := by
      simp only [acceptable, hDig, Option.isSome_some, if_true, Bool.and_eq_true] at hAcc
      exact hAcc.2.2
    simp only [sameBinding, Bool.and_eq_true, beq_iff_eq] at hSame
    simp only [succeeding, hDig]
    constructor <;> first | rfl | simp [renewed, hSame]

theorem updated_revision (hUpd : updated op args = .ok op') : op'.revision = op.revision + 1 := by
  obtain ⟨-, -, rfl⟩ := updated_ok hUpd
  cases hDig : args.renewedActionDigest <;> simp only [succeeding, hDig] <;> rfl

theorem overwrite_encode (hUpd : updated op args = .ok op') :
    (encode op).overwrite op op' = encode op' := by
  have hSame := updated_sameProposal hUpd
  simp [OperationRow.overwrite, encode, checkpointOf, aad, hSame.operationId, hSame.tenantId,
    hSame.userId, hSame.serviceConfigId, hSame.taskId, hSame.outerCapabilityId,
    hSame.outerVersion]

variable {w' : World δ}

theorem transition_ok (hTrans : transition op args w = .ok (op', w')) :
    updated op args = .ok op' ∧ ∃ row, w.row = some row ∧ row.matches op = true ∧
      w' = { w with row := some (row.overwrite op op') } := by
  obtain ⟨new, hUpd, hTrans⟩ := bind_ok.mp hTrans
  repeat' split at hTrans
  all_goals cases hTrans
  exact ⟨hUpd, _, ‹_›, ‹_›, rfl⟩

/-- Whatever operation a caller brings, the row that its transition commits
reads back as the operation that the transition returns. -/
theorem transition_reads_back (hTrans : transition op args w = .ok (op', w')) :
    ∃ row, w'.row = some row ∧ decode row = .ok op' := by
  obtain ⟨hUpd, row, hRow, hMatch, rfl⟩ := transition_ok hTrans
  have hSame := updated_sameProposal hUpd
  have hValid := (updated_ok hUpd).2.1
  simp only [OperationRow.matches, Bool.and_eq_true, beq_iff_eq] at hMatch
  obtain ⟨⟨⟨⟨⟨hId, hTenant⟩, hUser⟩, hService⟩, -⟩, -⟩ := hMatch
  simp [decode, OperationRow.overwrite, OperationRow.aad, aad, checkpointOf, hValid, hId,
    hTenant, hUser, hService, hSame.outerCapabilityId, hSame.outerVersion]

theorem create_reads_back (hValid : op.validate = true) (hCreate : create op w = .ok (op', w')) :
    op' = op ∧ ∃ row, w'.row = some row ∧ decode row = .ok op := by
  obtain ⟨-, hCreate⟩ := refuse_ok.mp hCreate
  obtain ⟨-, hCreate⟩ := refuse_ok.mp hCreate
  cases hCreate
  exact ⟨rfl, encode op, rfl, decode_encode hValid⟩

def terminalStates : List OperationState := [.verifiedSuccess, .failed, .cancelled]

theorem updated_not_terminal (hUpd : updated op args = .ok op') : op.state ∉ terminalStates := by
  obtain ⟨hAcc, -, -⟩ := updated_ok hUpd
  intro hTerm
  simp only [acceptable, Bool.and_eq_true, Bool.or_eq_true, beq_iff_eq] at hAcc
  rcases hAcc with ⟨⟨hCode, hTable⟩, -⟩
  have hNone : allowed op.state = [] := by
    simp only [terminalStates, List.mem_cons, List.not_mem_nil, or_false] at hTerm
    rcases hTerm with hs | hs | hs <;> rw [hs] <;> rfl
  rcases hCode with hCode | ⟨⟨-, hOpen⟩, -⟩
  · simp [hNone, Option.isNone_iff_eq_none.mp hCode] at hTable
  · rcases hOpen with hs | hs <;> simp [hs, terminalStates] at hTerm

def Stored (w : World δ) : Prop :=
  ∀ row, w.row = some row → ∃ op, row = encode op ∧ op.validate = true

theorem Stored.holds (hStored : Stored w) {row : OperationRow δ} (hRow : w.row = some row) :
    ∃ op, w.holds op ∧ op.validate = true := by
  obtain ⟨op, rfl, hValid⟩ := hStored row hRow
  exact ⟨op, hRow, hValid⟩

theorem stored_of_holds (hHolds : w.holds op) (hValid : op.validate = true) : Stored w := by
  intro row hRow
  rw [hHolds] at hRow
  exact ⟨op, (Option.some.inj hRow).symm, hValid⟩

/-- The operation of `w`, if any, is still there in `w'` or has a higher
revision, and is the same proposal. -/
def Later (w w' : World δ) : Prop :=
  ∀ op, w.holds op → ∃ op', w'.holds op' ∧ (op' = op ∨ op.revision < op'.revision) ∧
    op'.remoteTool = op.remoteTool

theorem Later.trans {a b c : World δ} (hab : Later a b) (hbc : Later b c) : Later a c := by
  intro op hOp
  obtain ⟨op₁, hOp₁, hRev₁, hTool₁⟩ := hab op hOp
  obtain ⟨op₂, hOp₂, hRev₂, hTool₂⟩ := hbc op₁ hOp₁
  refine ⟨op₂, hOp₂, ?_, hTool₂.trans hTool₁⟩
  rcases hRev₁ with rfl | hRev₁
  · exact hRev₂
  · rcases hRev₂ with rfl | hRev₂
    · exact .inr hRev₁
    · exact .inr (by omega)

/-! ## Steps -/

variable [DecidableEq δ]

/-- At some point of the history the operation's gate request was confirmed, not
expired, and for the operation's action. -/
def Authorised (h : List (World δ)) (op : WorkflowOperation δ) : Prop :=
  ∃ w ∈ h, ∃ row ∈ w.gate, row.authorises op op.context w.env.now

/-- The transitions that the code asks for, apart from the one to `ready`. -/
inductive Permitted (cfg : Config δ) (h : List (World δ)) (op : WorkflowOperation δ) :
    TransitionArgs δ → Prop
  /-- A card or a confirmed attempt runs out. -/
  | expire : op.state = .waitingLocalConfirm ∨ op.state = .ready →
      Permitted cfg h op { state := .expired }
  /-- A card or a confirmed attempt is cancelled. -/
  | cancel : Permitted cfg h op { state := .cancelled }
  /-- It fails before anything was sent. -/
  | abandon (code : String) :
      Permitted cfg h op { state := .failed, confirmationErrorCode := some code }
  /-- A confirmed attempt spends its permission. -/
  | send : Authorised h op → Permitted cfg h op { state := .sending }
  /-- What became of a send. -/
  | settle (state : OperationState) (safeOutput publicResult : Option Json)
      (reviewUrl : Option String) :
      state ∈ [.unknown, .verifiedSuccess, .waitingExternalConfirm, .failed] →
      Permitted cfg h op { state, safeOutput, publicResult, reviewUrl }
  /-- A waiting card is pointed at its request. -/
  | adopt (requestId : String) (expiresAt : Int) : op.state = .waitingLocalConfirm →
      Permitted cfg h op
        { state := .waitingLocalConfirm
          gateRequestId := some requestId
          renewedContext := some op.context
          renewedActionDigest := some op.actionDigest
          renewedGateExpiresAt := some expiresAt }
  /-- A waiting card moves to a new login. -/
  | rebind (context : McpAuthorizationContext) (requestId : String) (expiresAt : Int) :
      op.state = .waitingLocalConfirm →
      Permitted cfg h op
        { state := .waitingLocalConfirm
          gateRequestId := some requestId
          renewedContext := some context
          renewedActionDigest :=
            some (cfg.scheme.digest (.rebind op.actionDigest op.revision context))
          renewedGateExpiresAt := some expiresAt }
  /-- The action is to be confirmed once more, which for a started send is only
  possible where sending twice is harmless. -/
  | renew (context : McpAuthorizationContext) (policyVersion requestId : String)
      (expiresAt : Int) :
      (op.sendStarted = true → op.remoteTool ∉ nonIdempotentTools) →
      Permitted cfg h op
        { state := .waitingLocalConfirm
          gateRequestId := some requestId
          renewedContext := some context
          renewedActionDigest := some
            (cfg.scheme.digest (.renewal op.actionDigest op.revision context policyVersion))
          renewedGateExpiresAt := some expiresAt }
  /-- A send of unknown outcome changes hands. -/
  | takeover (context : McpAuthorizationContext) (policyVersion : String) :
      op.sendStarted = true →
      Permitted cfg h op
        { state := .unknown
          renewedContext := some context
          renewedActionDigest := some
            (cfg.scheme.digest (.takeover op.actionDigest context policyVersion)) }

/-- What `start` creates. -/
structure Created (cfg : Config δ) (op : WorkflowOperation δ) : Prop where
  state : op.state = .waitingLocalConfirm
  attemptId : op.attemptId = none
  sendStarted : op.sendStarted = false
  previousAttempts : op.previousAttempts = []
  confirmationErrorCode : op.confirmationErrorCode = none
  actionDigest : ∃ context arguments manifest outer outerVersion mapping, op.actionDigest =
    cfg.scheme.digest (.action context arguments manifest outer outerVersion mapping)

/-- The transition to `ready`, for an attempt with a fresh id. -/
def readyArgs (requestId attemptId : String) : TransitionArgs δ :=
  { state := .ready, gateRequestId := some requestId, attemptId := some attemptId }

inductive Step (cfg : Config δ) : List (World δ) → World δ → Prop
  | idle (w : World δ) (t : List (World δ)) : Step cfg (w :: t) w
  | env (w : World δ) (t : List (World δ)) (e : Env δ) : Step cfg (w :: t) { w with env := e }
  | guard (w : World δ) (t : List (World δ)) (g : Option Nat) :
      Step cfg (w :: t) { w with guard := g }
  | draw (w : World δ) (t : List (World δ)) :
      Step cfg (w :: t) { w with drawn := w.drawn + 1 }
  | request (w : World δ) (t : List (World δ)) (r : HumanGateRequest δ) :
      w.gateRow r.requestId = none → Step cfg (w :: t) { w with gate := ⟨r, none⟩ :: w.gate }
  | decide (w : World δ) (t : List (World δ)) (d : HumanGateDecisionRecord δ) :
      Step cfg (w :: t) (recordDecision d w)
  | create (w : World δ) (t : List (World δ)) (op : WorkflowOperation δ) :
      w.row = none → Created cfg op → Step cfg (w :: t) { w with row := some (encode op) }
  | advance (w : World δ) (t : List (World δ)) (op op' : WorkflowOperation δ)
      (args : TransitionArgs δ) : w.holds op → Permitted cfg (w :: t) op args →
      updated op args = .ok op' → Step cfg (w :: t) { w with row := some (encode op') }
  | ready (w : World δ) (t : List (World δ)) (op op' : WorkflowOperation δ)
      (requestId : String) : w.holds op → op.state = .waitingLocalConfirm →
      updated op (readyArgs requestId (cfg.uuid w.drawn)) = .ok op' →
      Step cfg (w :: t) { w with row := some (encode op'), drawn := w.drawn + 1 }

abbrev Runs (cfg : Config δ) : List (World δ) → Prop := Run Initially (Step cfg)

theorem GateRow.authorises_iff {row : GateRow δ} {context : McpAuthorizationContext} {now : Int} :
    row.authorises op context now = true ↔
      op.gateRequestId = some row.request.requestId ∧ row.request.taskId = context.taskId ∧
      row.request.requestedForAiUserId = context.userId ∧
      row.request.requestedTenantId = context.tenantId ∧
      row.request.requestedSessionId = context.chatSessionId ∧
      row.request.actionDigest = op.actionDigest ∧
      (∃ d, row.decision = some d ∧ d.decision = .confirmed) ∧
      now < row.request.expiresAt := by
  cases hDec : row.decision <;> simp [GateRow.authorises, hDec, and_assoc]

theorem Authorised.mono (hAuth : Authorised h op) (hExt : h <:+ h') : Authorised h' op := by
  obtain ⟨w, hw, hRow⟩ := hAuth
  exact ⟨w, hExt.subset hw, hRow⟩

theorem Permitted.mono {cfg : Config δ} (hPerm : Permitted cfg h op args) (hExt : h <:+ h') :
    Permitted cfg h' op args := by
  cases hPerm with
  | expire hState => exact .expire hState
  | cancel => exact .cancel
  | abandon code => exact .abandon code
  | send hAuth => exact .send (hAuth.mono hExt)
  | settle state safeOutput publicResult reviewUrl hState =>
    exact .settle state safeOutput publicResult reviewUrl hState
  | adopt requestId expiresAt hState => exact .adopt requestId expiresAt hState
  | rebind context requestId expiresAt hState => exact .rebind context requestId expiresAt hState
  | renew context policyVersion requestId expiresAt hTool =>
    exact .renew context policyVersion requestId expiresAt hTool
  | takeover context policyVersion hSent => exact .takeover context policyVersion hSent

/-! ## The row along a run -/

section Row

variable {cfg : Config δ} {w w' : World δ} {t : List (World δ)}

/-- A step leaves the row alone, creates it, or commits one transition. -/
theorem Step.row_cases (hStep : Step cfg (w :: t) w') :
    w'.row = w.row ∨
    (∃ op, w.row = none ∧ Created cfg op ∧ w'.holds op) ∨
    (∃ op op' args, w.holds op ∧ w'.holds op' ∧ updated op args = .ok op' ∧
      Permitted cfg (w :: t) op args) ∨
    (∃ op op' requestId, w.holds op ∧ w'.holds op' ∧ op.state = .waitingLocalConfirm ∧
      updated op (readyArgs requestId (cfg.uuid w.drawn)) = .ok op') := by
  cases hStep with
  | idle | env | guard | draw | request | decide => exact .inl rfl
  | create _ _ op hNone hNew => exact .inr (.inl ⟨op, hNone, hNew, rfl⟩)
  | advance _ _ op op' args hHolds hPerm hUpd =>
    exact .inr (.inr (.inl ⟨op, op', args, hHolds, rfl, hUpd, hPerm⟩))
  | ready _ _ op op' requestId hHolds hState hUpd =>
    exact .inr (.inr (.inr ⟨op, op', requestId, hHolds, rfl, hState, hUpd⟩))

/-- A commit that changes an operation computes it with `updated`. -/
theorem Step.holds_cases (hStep : Step cfg (w :: t) w') (hHolds : w.holds op) :
    w'.holds op ∨ ∃ op' args, w'.holds op' ∧ updated op args = .ok op' := by
  rcases hStep.row_cases with hSame | ⟨_, hNone, -, -⟩ |
    ⟨op₁, op', args, hOp₁, hOp', hUpd, -⟩ | ⟨op₁, op', requestId, hOp₁, hOp', -, hUpd⟩
  · exact .inl (hSame.trans hHolds)
  · rw [World.holds, hNone] at hHolds
    cases hHolds
  · rw [World.holds_unique hHolds hOp₁]
    exact .inr ⟨op', args, hOp', hUpd⟩
  · rw [World.holds_unique hHolds hOp₁]
    exact .inr ⟨op', _, hOp', hUpd⟩

theorem Step.stored (hStored : Stored w) (hStep : Step cfg (w :: t) w') : Stored w' := by
  rcases hStep.row_cases with hSame | ⟨op, -, hNew, hOp⟩ | ⟨_, op', _, -, hOp', hUpd, -⟩ |
    ⟨_, op', _, -, hOp', -, hUpd⟩
  · intro row hRow
    exact hStored row (hSame ▸ hRow)
  · refine stored_of_holds hOp ?_
    simp [WorkflowOperation.validate, hNew.confirmationErrorCode]
  · exact stored_of_holds hOp' (updated_ok hUpd).2.1
  · exact stored_of_holds hOp' (updated_ok hUpd).2.1

theorem Runs.stored (hRun : Runs cfg h) : ∀ w ∈ h, Stored w := by
  refine Run.mem_inv ?_ (fun w t w' hStored hStep => hStep.stored hStored) hRun
  intro w hInit row hRow
  rw [hInit.1] at hRow
  cases hRow

theorem Step.later (hStep : Step cfg (w :: t) w') : Later w w' := by
  intro op hOp
  rcases hStep.holds_cases hOp with hSame | ⟨op', args, hOp', hUpd⟩
  · exact ⟨op, hSame, .inl rfl, rfl⟩
  · have hRev := updated_revision hUpd
    exact ⟨op', hOp', .inr (by omega), (updated_sameProposal hUpd).remoteTool⟩

theorem Runs.later (hRun : Runs cfg (w :: t)) : ∀ x ∈ w :: t, Later x w :=
  Run.rel_head (fun _ op hOp => ⟨op, hOp, .inl rfl, rfl⟩) Later.trans
    (fun _ _ _ hStep => hStep.later) hRun

/-- **A compare-and-set only succeeds on what is current.** An operation that
was seen earlier and still has the stored revision is the stored operation. -/
theorem Runs.current_of_seen (hRun : Runs cfg (w :: t)) {op₁ : WorkflowOperation δ}
    (hSeen : Seen (w :: t) op) (hOp₁ : w.holds op₁) (hRev : op₁.revision = op.revision) :
    op₁ = op := by
  obtain ⟨x, hx, hHolds⟩ := hSeen
  obtain ⟨op', hOp', hLater, -⟩ := hRun.later x hx op hHolds
  obtain rfl := World.holds_unique hOp₁ hOp'
  rcases hLater with hEq | hLt
  · exact hEq
  · omega

end Row

end EternalAI.Mcp
