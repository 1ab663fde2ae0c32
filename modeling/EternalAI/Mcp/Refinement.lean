import EternalAI.Mcp.Steps

/-!
# Governed MCP operations — the coordinator takes no other step

Every procedure of `Service.lean` acts only within `Step`, whatever else happens
between its actions, and a snapshot it passes on was the stored operation at
some point of the history. There is one lemma for each procedure, named after
it. `ServiceRun.runs` draws the conclusion: the states of every interleaving of
service calls, crashes included, are a run of `Step`.
-/

namespace EternalAI.Mcp

open Lib List Safe

/-! ## Calls that only look -/

section

variable {δ α : Type} {e : Failure} {cfg : Config δ} {r : HumanGateRequest δ}
  {op : WorkflowOperation δ} {requestId operationId tenantId userId : String}
  {session : Option Session} {policy : RecoveryPolicy δ}

/-- What a call does to the task that only looks at it, or asks the gate. -/
inductive Look (w : World δ) : World δ → Prop
  | idle : Look w w
  | draw : Look w { w with drawn := w.drawn + 1 }
  | request (r : HumanGateRequest δ) : w.gateRow r.requestId = none →
      Look w { w with gate := ⟨r, none⟩ :: w.gate }

abbrev Looks (p : Call δ α) : Prop := p.Moves Look

@[simp] theorem looks_read {f : World δ → α} : Looks (.read f) := .read (fun _ => .idle) f

@[simp] theorem looks_orRaise {x : Option α} : Looks (orRaise e x : Call δ α) := by
  cases x <;> exact trivial

@[simp] theorem looks_freshId : Looks (freshId cfg) := by
  refine .atomic (fun _ => .idle) fun w id w' hDraw => ?_
  cases hDraw
  exact .draw

/-- Inserting a request is a step, and only adds it under an unused id. -/
@[simp] theorem looks_insertRequest : Looks (.atomic (insertRequest r) : Call δ Bool) := by
  refine .atomic (fun _ => .idle) fun w b w' hIns => ?_
  unfold insertRequest at hIns
  split at hIns <;> cases hIns
  · rename_i hFree
    exact .request r (by simpa using hFree.1)
  · exact .idle

@[simp] theorem looks_now : Looks (now : Call δ Int) := looks_read

@[simp] theorem looks_getRequest : Looks (getRequest requestId : Call δ _) := looks_read

@[simp] theorem looks_getDecision : Looks (getDecision requestId : Call δ _) := looks_read

@[simp] theorem looks_getTaskBinding : Looks (getTaskBinding : Call δ _) := looks_read

@[simp] theorem looks_load : Looks (load operationId tenantId userId : Call δ _) :=
  looks_read.seq fun _ => .ofExcept _

@[simp] theorem looks_byTask : Looks (byTask : Call δ _) :=
  looks_read.seq fun _ => .ofExcept _

@[simp] theorem looks_buildContext {taskId chatSessionId : String} {mapping : ToolBinding}
    {authorization : Option GovernedWorkflowAuthorization} :
    Looks (buildContext session taskId chatSessionId userId tenantId mapping authorization :
      Call δ _) := by
  repeat refine .seq (by simp) fun _ => ?_
  simp

@[simp] theorem looks_lifecycleOwner : Looks (lifecycleOwner session op) := by
  repeat refine .seq (by simp) fun _ => ?_
  simp

theorem looks_checkDeadline {d : Option Deadline} : Looks (checkDeadline d : Call δ _) := by
  cases d with
  | none => exact trivial
  | some d =>
    refine .seq looks_now fun t => ?_
    exact .seq (.require ..) fun _ => trivial

@[simp] theorem looks_submitDeadline {serviceConfigId tool : String} :
    Looks (submitDeadline cfg serviceConfigId tool) := by
  unfold submitDeadline
  split
  · exact trivial
  · exact .ite (.seq looks_read fun _ => looks_checkDeadline) trivial

@[simp] theorem looks_artifactDeadline {serviceConfigId tool : String} :
    Looks (artifactDeadline cfg serviceConfigId tool) := by
  refine .seq looks_submitDeadline fun submit => ?_
  split
  · exact .ite (.seq looks_read fun _ => looks_checkDeadline) trivial
  · exact trivial

@[simp] theorem looks_recoveryPolicy : Looks (recoveryPolicy cfg op) := by
  repeat refine .seq (by simp) fun _ => ?_
  simp

theorem looks_refusal {code : Failure → String} : Looks (refusal code e : Call δ _) := by
  unfold refusal
  split <;> simp

@[simp] theorem looks_verifiedRead {arguments : Option Json} :
    Looks (verifiedRead cfg op arguments) := by
  cases arguments with
  | none => exact trivial
  | some arguments =>
    repeat refine .seq (by simp) fun _ => ?_
    exact trivial

@[simp] theorem looks_takeoverContext : Looks (takeoverContext session policy op) := by
  repeat refine .seq (by simp) fun _ => ?_
  exact trivial

end

variable {δ : Type} [DecidableEq δ] {cfg : Config δ} {α : Type} {op : WorkflowOperation δ}
  {e : Failure} {r : HumanGateRequest δ} {requestId operationId tenantId userId : String}
  {session : Option Session}

theorem Look.step {w w' : World δ} {t : List (World δ)} (hLook : Look w w') :
    Step cfg (w :: t) w' := by
  cases hLook with
  | idle => exact .idle w t
  | draw => exact .draw w t
  | request r hFree => exact .request w t r hFree

/-- A call acts within `Step` from the history `h` on. -/
abbrev Sound (cfg : Config δ) (Q : α → List (World δ) → Prop) (p : Call δ α)
    (h : List (World δ)) : Prop :=
  Safe Initially (Step cfg) Q p h

abbrev anything {α : Type} : α → List (World δ) → Prop := fun _ _ => True

variable {h : List (World δ)}

/-! ## Reads and checks -/

variable {context : McpAuthorizationContext} {current : WorkflowOperation δ} {c : Prop}

theorem sound_orRaise {x : Option α} : Sound cfg (fun a _ => x = some a) (orRaise e x) h := by
  cases x with
  | none => exact trivial
  | some a => exact rfl

variable {p : OperationRow δ → Bool}

theorem sound_fetch :
    Sound cfg (fun r h' => ∀ op, r = .ok (some op) → Reread h h' op) (.read (fetch p)) h := by
  refine Safe.read (fun w t => .idle w t) fun w t hExt hRun op hFetch => ?_
  obtain ⟨row, hRow, hDec⟩ : ∃ row, w.row = some row ∧ decode row = .ok op := by
    unfold fetch at hFetch
    split at hFetch
    · cases hFetch
    · rename_i row hRow
      split at hFetch
      · obtain ⟨_, hDec, ⟨⟩⟩ := map_ok.mp hFetch
        exact ⟨row, hRow, hDec⟩
      · cases hFetch
  obtain ⟨op₁, hHolds, -⟩ := (Runs.stored hRun w mem_cons_self).holds hRow
  rw [Option.some.inj (hRow.symm.trans hHolds)] at hDec
  obtain rfl := eq_of_decode_encode hDec
  refine ⟨⟨w, mem_cons_self, hHolds⟩, fun op₀ hSeen => ?_⟩
  obtain ⟨x, hx, hOp₀⟩ := hSeen.mono hExt
  obtain ⟨op', hOp', -, hTool⟩ := Runs.later hRun x hx op₀ hOp₀
  rw [World.holds_unique hHolds hOp', hTool]

theorem sound_fetched :
    Sound cfg (fun r h' => ∀ op, r = some op → Reread h h' op)
      (do let r ← .read (fetch p); .ofExcept r) h := by
  refine Safe.seq sound_fetch fun r h' _ hr => Safe.ofExcept fun a ha op hop => ?_
  exact hr op (by rw [ha, hop])

theorem sound_load :
    Sound cfg (fun r h' => ∀ op, r = some op → Reread h h' op)
      (load operationId tenantId userId) h :=
  sound_fetched

theorem sound_byTask :
    Sound cfg (fun r h' => ∀ op, r = some op → Reread h h' op) (byTask : Call δ _) h :=
  sound_fetched

theorem sound_reload : Sound cfg (fun op h' => Seen h' op) (reload : Call δ _) h := by
  refine Safe.seq sound_byTask fun r h' _ hr => ?_
  exact sound_orRaise.imp fun op h'' hExt hop => (hr op hop).1.mono hExt

variable {pid : Nat} {authorization : GovernedWorkflowAuthorization} {expectedActionDigest : δ}
  {expectedGateRequestId : String}

theorem sound_reloadCurrent : Sound cfg (fun op' h' => Reread h h' op') (reloadCurrent op) h := by
  refine Safe.seq sound_load fun r h₁ _ hr => ?_
  refine Safe.seq sound_orRaise fun current h₂ hExt hc => ?_
  exact require_seq fun _ => (hr current hc).mono hExt

/-! ## Commits -/

variable {args : TransitionArgs δ}

theorem transition_of_seen {op' : WorkflowOperation δ} {w w₁ w' : World δ} {t : List (World δ)}
    (hRun : Runs cfg (w :: t)) (hSeen : Seen (w :: t) op) (hRow₁ : w₁.row = w.row)
    (hTrans : transition op args w₁ = .ok (op', w')) :
    w.holds op ∧ updated op args = .ok op' ∧ w' = { w₁ with row := some (encode op') } := by
  obtain ⟨hUpd, row, hRow, hMatch, rfl⟩ := transition_ok hTrans
  obtain ⟨op₁, hHolds, -⟩ := (Runs.stored hRun w mem_cons_self).holds (hRow₁ ▸ hRow)
  have hEnc : row = encode op₁ := Option.some.inj ((hRow₁ ▸ hRow).symm.trans hHolds)
  have hRev : op₁.revision = op.revision := by
    simp only [OperationRow.matches, Bool.and_eq_true, beq_iff_eq] at hMatch
    rw [← hMatch.1.2, hEnc, encode]
  obtain rfl := Runs.current_of_seen hRun hSeen hHolds hRev
  rw [hEnc, overwrite_encode hUpd]
  exact ⟨hHolds, hUpd, rfl⟩

theorem sound_transition (hSeen : Seen h op) (hPerm : Permitted cfg h op args) :
    Sound cfg (fun op' h' => Seen h' op' ∧ updated op args = .ok op')
      (.atomic (transition op args)) h := by
  refine Safe.atomic (fun w t => .idle w t) fun w t hExt hRun op' w' hTrans => ?_
  obtain ⟨hHolds, hUpd, rfl⟩ := transition_of_seen hRun (hSeen.mono hExt) rfl hTrans
  exact ⟨.advance w t op op' args hHolds (hPerm.mono hExt) hUpd,
    ⟨_, mem_cons_self, rfl⟩, hUpd⟩

theorem sound_ready (hSeen : Seen h op) (hState : op.state = .waitingLocalConfirm) :
    Sound cfg (fun op' h' => Seen h' op')
      (.atomic fun w => transition op (readyArgs requestId (cfg.uuid w.drawn))
        { w with drawn := w.drawn + 1 }) h := by
  refine Safe.atomic (fun w t => .idle w t) fun w t hExt hRun op' w' hTrans => ?_
  have hRow : ({ w with drawn := w.drawn + 1 } : World δ).row = w.row := rfl
  obtain ⟨hHolds, hUpd, rfl⟩ := transition_of_seen hRun (hSeen.mono hExt) hRow hTrans
  exact ⟨.ready w t op op' requestId hHolds hState hUpd, ⟨_, mem_cons_self, rfl⟩⟩

theorem sound_create (hNew : Created cfg op) :
    Sound cfg (fun op' h' => Seen h' op' ) (.atomic (create op)) h := by
  refine Safe.atomic (fun w t => .idle w t) fun w t _ _ op' w' hCreate => ?_
  obtain ⟨-, hCreate⟩ := refuse_ok.mp hCreate
  obtain ⟨hNone, hCreate⟩ := refuse_ok.mp hCreate
  cases hCreate
  have hRow : w.row = none := by simpa using hNone
  exact ⟨.create w t op hRow hNew, ⟨_, mem_cons_self, rfl⟩⟩

/-! ## Guard -/

theorem step_releaseGuard (pid : Nat) (w : World δ) (t : List (World δ)) :
    Step cfg (w :: t) (releaseGuard pid w) := by
  unfold releaseGuard
  split
  · exact .guard w t none
  · exact .idle w t

theorem sound_acquireGuard : Sound cfg anything (.atomic (acquireGuard pid) : Call δ Unit) h := by
  refine Safe.atomic (fun w t => .idle w t) fun w t _ _ u w' hAcq => ?_
  unfold acquireGuard at hAcq
  split at hAcq
  · obtain ⟨-, rfl⟩ := Prod.mk.inj (Except.ok.inj hAcq)
    exact ⟨.guard w t (some pid), trivial⟩
  · cases hAcq

theorem sound_executionGuard {body : Call δ α} {Q : α → List (World δ) → Prop}
    (hStable : ∀ a h' h'', h' <:+ h'' → Q a h' → Q a h'')
    (hBody : ∀ h', h <:+ h' → Sound cfg Q body h') : Sound cfg Q (executionGuard pid body) h := by
  refine Safe.seq sound_acquireGuard fun _ h₁ hExt _ => ?_
  refine andFinally (hBody h₁ hExt) hStable fun h₂ _ => ?_
  refine Safe.atomic (fun w t => .idle w t) fun w t _ _ u w' hRel => ?_
  obtain ⟨-, rfl⟩ := Prod.mk.inj (Except.ok.inj hRel)
  exact ⟨step_releaseGuard pid w t, trivial⟩

/-! ## Procedures that only look -/

variable {p q : Call δ α} {β : Type} {k : α → Call δ β}

/-- A call that is sound from any history on, whatever it returns. -/
def Harmless (cfg : Config δ) (p : Call δ α) : Prop := ∀ h, Sound cfg anything p h

theorem Looks.harmless (hp : Looks p) : Harmless cfg p :=
  of_moves (fun _ _ _ hLook => hLook.step) hp

theorem Looks.andThen {Q : β → List (World δ) → Prop} (hp : Looks p)
    (hk : ∀ a h', h <:+ h' → Sound cfg Q (k a) h') : Sound cfg Q (p >>= k) h :=
  Safe.seq (hp.harmless h) fun a h' hExt _ => hk a h' hExt

@[simp] theorem looks_confirmation : Looks (confirmation op) := by
  repeat refine .seq (by simp) fun _ => ?_
  simp

@[simp] theorem looks_currentRequest : Looks (currentRequest op) := by
  unfold currentRequest
  split <;> simp

@[simp] theorem looks_owned : Looks (owned cfg session op) := by
  repeat refine .seq (by simp) fun _ => ?_
  simp

/-! ## Confirmation requests -/

variable {legacy : Bool}

@[simp] theorem looks_existingRequest : Looks (existingRequest op requestId legacy) := by
  unfold existingRequest
  split
  · split <;> simp
  · simp

@[simp] theorem looks_createRequest : Looks (createRequest r) := by
  repeat refine .seq (by simp) fun _ => ?_
  refine .ite trivial ?_
  repeat refine .seq (by simp) fun _ => ?_
  exact trivial

@[simp] theorem looks_createOrGet : Looks (createOrGet r) := by
  refine .seq (by simp) fun x => ?_
  split <;> simp

@[simp] theorem looks_existingOrCreate {candidate : Int → HumanGateRequest δ}
    {existing : Option (HumanGateRequest δ)} :
    Looks (existingOrCreate cfg candidate existing) := by
  cases existing with
  | some request => exact trivial
  | none => exact looks_now.seq fun requestedAt => .seq (.require ..) fun _ => looks_createOrGet

theorem looks_gate {actionDigest : δ} {expires : Int} :
    Looks (gate cfg op context actionDigest expires legacy) := by
  repeat refine .seq (by simp) fun _ => ?_
  exact trivial

/-! ## Calls that know the operation -/

/-- A call that is sound wherever the operation was seen. What was seen once stays seen, so
nothing that happens in between matters. -/
def Knowing (cfg : Config δ) (op : WorkflowOperation δ) (Q : α → List (World δ) → Prop)
    (p : Call δ α) : Prop :=
  ∀ h, Seen h op → Sound cfg Q p h

section Knowing

variable {β : Type} {p : Call δ α} {k : α → Call δ β} {Q : α → List (World δ) → Prop}
  {R : β → List (World δ) → Prop}

theorem Looks.known (hp : Looks p) (hk : ∀ a, Knowing cfg op R (k a)) :
    Knowing cfg op R (p >>= k) :=
  fun _ hSeen => hp.andThen fun a h' hExt => hk a h' (hSeen.mono hExt)

namespace Knowing

theorem require [Decidable c] (hp : c → Knowing cfg op Q p) :
    Knowing cfg op Q (.require c e >>= fun _ => p) :=
  fun h hSeen => require_seq fun hc => hp hc h hSeen

theorem ite [Decidable c] (hp : c → Knowing cfg op Q p) (hq : ¬c → Knowing cfg op Q q) :
    Knowing cfg op Q (if c then p else q) :=
  fun h hSeen => Safe.ite (fun hc => hp hc h hSeen) fun hc => hq hc h hSeen

theorem ret {a : α} : Knowing cfg op anything (.ret a) := fun _ _ => trivial

theorem quiet (hp : Knowing cfg op Q p) : Knowing cfg op anything p :=
  fun h hSeen => (hp h hSeen).imp fun _ _ _ _ => trivial

theorem answer {f : α → β} (hp : Knowing cfg op Q p) :
    Knowing cfg op anything (p >>= fun a => .ret (f a)) :=
  fun h hSeen => Safe.seq (hp h hSeen) fun _ _ _ _ => trivial

theorem refuse (hp : Knowing cfg op Q p) :
    Knowing cfg op R (p >>= fun _ => .raise e) :=
  fun h hSeen => Safe.seq (hp h hSeen) fun _ _ _ _ => trivial

theorem transition (hPerm : ∀ h, Permitted cfg h op args) :
    Knowing cfg op (fun op' h' => Seen h' op' ∧ updated op args = .ok op')
      (.atomic (transition op args)) :=
  fun h hSeen => sound_transition hSeen (hPerm h)

end Knowing

end Knowing

/-! ## Confirming and sending -/

theorem knowing_ensureConfirmation :
    Knowing cfg op anything (ensureConfirmation cfg session op) := by
  refine looks_owned.known fun _ => .require fun hState => looks_gate.known fun request =>
    looks_now.known fun t => .ite (fun _ => ?_) fun _ => .ite (fun _ => ?_) fun _ => .ret
  · exact .refuse (.transition fun _ => .expire (.inl hState))
  · exact .answer (.transition fun _ => .adopt _ _ hState)

theorem sound_start {definition : GovernedWorkflowDefinition} {sessionId aiUserId : String}
    {initialInput : Json} : Sound cfg anything
      (start cfg session definition sessionId aiUserId tenantId initialInput) h := by
  -- everything up to the insert only reads
  repeat (refine Looks.andThen ?_ fun _ _ _ => ?_; · simp; done)
  refine Safe.seq (sound_create ?_) fun op h' _ hSeen => knowing_ensureConfirmation h' hSeen
  exact
    { state := rfl
      attemptId := rfl
      sendStarted := rfl
      previousAttempts := rfl
      confirmationErrorCode := rfl
      actionDigest := ⟨_, _, _, _, _, _, rfl⟩ }

variable {arguments : Json}

/-- `consume` commits a send only after it has found the operation's request
confirmed and alive. -/
theorem sound_consume {capabilityId : String} :
    Sound cfg anything (consume cfg pid authorization context capabilityId arguments) h := by
  refine Safe.seq sound_load fun op? h₁ _ hop => ?_
  cases op? with
  | none => exact trivial
  | some op =>
    have hSeen : Seen h₁ op := (hop op rfl).1
    refine looks_read.andThen fun holder h₂ hExt₂ => ?_
    refine looks_now.andThen fun expiryNow h₃ hExt₃ => ?_
    refine looks_now.andThen fun artifactNow h₄ hExt₄ => require_seq fun hCheck => ?_
    obtain ⟨-, -, -, -, -, rfl, -, -, -⟩ := hCheck
    have hSeen₄ : Seen h₄ op := hSeen.mono (hExt₂.trans (hExt₃.trans hExt₄))
    have hGate : Sound cfg (fun b h' => b = true → Authorised h' op)
        (.read fun w => w.gate.any (·.authorises op op.context w.env.now)) h₄ := by
      refine Safe.read (fun w t => .idle w t) fun w t _ _ hAny => ?_
      obtain ⟨row, hRow, hAuth⟩ := any_eq_true.mp hAny
      exact ⟨w, mem_cons_self, row, hRow, hAuth⟩
    refine Safe.seq hGate fun confirmed h₅ hExt₅ hAuth => require_seq fun hConf => ?_
    exact (sound_transition (hSeen₄.mono hExt₅) (.send (hAuth hConf))).imp
      fun _ _ _ _ => trivial

@[simp] theorem looks_verifyWrite :
    Looks (verifyWrite cfg context authorization arguments) := by
  repeat refine .seq (by simp) fun _ => ?_
  exact .require ..

@[simp] theorem looks_routeLeaf : Looks (routeLeaf cfg session op authorization) := by
  repeat refine .seq (by simp) fun _ => ?_
  exact trivial

theorem harmless_executeLeaf : Harmless cfg (executeLeaf cfg pid session op authorization) := by
  refine fun h => looks_read.andThen fun stops h₁ _ => ?_
  split
  · exact Safe.ofExcept fun _ _ => trivial
  · refine Looks.andThen (.attempt looks_routeLeaf) fun routed h₂ _ => ?_
    split
    · exact looks_refusal.harmless h₂
    · refine looks_read.andThen fun stops h₃ _ => ?_
      split
      · exact Safe.ofExcept fun _ _ => trivial
      · refine Safe.seq (sound_consume.attempt (R := anything) (fun _ _ _ _ => trivial)
          fun _ _ _ => trivial) fun consumed h₄ _ _ => ?_
        split
        · exact looks_refusal.harmless h₄
        · exact looks_read.andThen fun _ _ _ => Safe.ofExcept fun _ _ => trivial

theorem knowing_settleAttempt {result : ExecutionResult} :
    Knowing cfg current anything (settleAttempt result current) := by
  refine .ite (fun _ => ?_) fun _ => .ite (fun _ => ?_) fun _ => .ret
  · split
    · rename_i outcome _ _
      refine (Knowing.transition fun _ => .settle _ _ _ _ ?_).quiet
      cases outcome.state <;> simp [OutcomeState.toState]
    · exact (Knowing.transition fun _ => .settle .unknown none none none (by simp)).quiet
  · exact (Knowing.transition fun _ => .abandon _).quiet

theorem knowing_sendConfirmed {request : HumanGateRequest δ}
    (hState : op.state = .waitingLocalConfirm) :
    Knowing cfg op anything (sendConfirmed cfg pid session op request) := by
  intro h hSeen
  refine Safe.seq (sound_ready hSeen hState) fun op h₁ _ _ => ?_
  refine looks_orRaise.andThen fun attemptId h₂ _ => ?_
  refine Safe.seq (harmless_executeLeaf h₂) fun result h₃ _ _ => ?_
  refine Safe.seq sound_load fun current h₄ _ hc => ?_
  refine Safe.seq sound_orRaise fun current h₅ hExt₅ hEq => ?_
  exact knowing_settleAttempt h₅ ((hc current hEq).1.mono hExt₅)

variable {confirmed : Bool}

theorem knowing_resumeWaiting {expectedActionDigest : Option δ}
    (hState : op.state = .waitingLocalConfirm) : Knowing cfg op anything
      (resumeWaiting cfg pid session op confirmed expectedActionDigest) := by
  refine looks_now.known fun t => .ite (fun _ => ?_) fun _ => ?_
  · exact (Knowing.transition fun _ => .expire (.inl hState)).quiet
  · refine .require fun _ => looks_currentRequest.known fun request =>
      looks_orRaise.known fun request => looks_getDecision.known fun decision =>
      looks_orRaise.known fun decision => looks_now.known fun t => .require fun _ => ?_
    exact knowing_sendConfirmed hState

theorem knowing_closeSending : Knowing cfg op (fun op' h' => Seen h' op') (closeSending op) := by
  refine .ite (fun _ h hSeen => ?_) fun _ h hSeen => hSeen
  exact (sound_transition hSeen (.settle .unknown none none none (by simp))).imp
    fun _ _ _ hUpd => hUpd.1

theorem sound_resume {expectedActionDigest : Option δ} :
    Sound cfg anything (resume cfg pid session confirmed expectedActionDigest) h := by
  refine Safe.seq sound_reload fun _ h₁ _ _ => ?_
  refine sound_executionGuard (fun _ _ _ _ _ => trivial) fun h₂ _ => ?_
  refine Safe.seq sound_reload fun current h₃ _ hSeen => ?_
  refine looks_owned.andThen fun _ h₄ hExt₄ => ?_
  refine Safe.seq (knowing_closeSending h₄ (hSeen.mono hExt₄)) fun op h₅ _ hSeen₅ => ?_
  exact Safe.ite (fun hState => knowing_resumeWaiting hState h₅ hSeen₅) fun _ => trivial

/-! ## Rebinding, closing, recovering -/

theorem knowing_rebindCard {session : Session} : Knowing cfg op anything
      (rebindCard cfg session op expectedActionDigest expectedGateRequestId) := by
  refine looks_now.known fun t => .require fun hCheck => ?_
  obtain ⟨-, hState, -⟩ := hCheck
  refine looks_getRequest.known fun original => looks_orRaise.known fun original =>
    looks_getDecision.known fun decision => .require fun _ => .require fun _ =>
    .require fun _ => looks_read.known fun mapping => looks_orRaise.known fun mapping =>
    looks_buildContext.known fun context => looks_read.known fun connection =>
    .require fun _ => looks_gate.known fun request => ?_
  exact .answer (.transition fun _ => .rebind _ _ _ hState)

theorem knowing_rebindCurrentSession : Knowing cfg op anything
      (rebindCurrentSession cfg session op expectedActionDigest expectedGateRequestId) := by
  refine looks_lifecycleOwner.known fun session => .ite (fun _ => ?_) fun _ =>
    .ite (fun _ => .ret) fun _ => .answer knowing_rebindCard
  exact .require fun _ => looks_orRaise.known fun id => looks_getRequest.known fun request =>
    looks_orRaise.known fun _ => .ret

theorem knowing_recover :
    Knowing cfg op (fun op' h' => Seen h' op' ∧ op'.remoteTool = op.remoteTool)
      (recover cfg pid session op) := by
  refine looks_owned.known fun _ h₁ hSeen => ?_
  refine sound_executionGuard (fun _ _ _ hExt hQ => ⟨hQ.1.mono hExt, hQ.2⟩) fun h₂ hExt₂ => ?_
  refine Safe.seq sound_reloadCurrent fun current h₃ hExt₃ hRead => ?_
  refine looks_owned.andThen fun _ h₄ hExt₄ => ?_
  have hTool : current.remoteTool = op.remoteTool := hRead.2 op (hSeen.mono hExt₂)
  have hSeen₄ : Seen h₄ current := hRead.1.mono hExt₄
  refine Safe.ite (fun _ => ?_) fun _ => require_seq fun _ => ?_
  · exact (sound_transition hSeen₄ .cancel).imp fun op' h' _ hUpd =>
      ⟨hUpd.1, (updated_sameProposal hUpd.2).remoteTool.trans hTool⟩
  · exact (sound_transition hSeen₄ (.settle .unknown none none none (by simp))).imp
      fun op' h' _ hUpd => ⟨hUpd.1, (updated_sameProposal hUpd.2).remoteTool.trans hTool⟩

theorem sound_discard : Sound cfg anything (discard cfg pid session) h := by
  refine Safe.seq sound_byTask fun op? h₁ _ _ => ?_
  cases op? with
  | none => exact trivial
  | some op =>
    refine sound_executionGuard (fun _ _ _ _ _ => trivial) fun h₂ _ => ?_
    refine Safe.seq sound_byTask fun current? h₃ _ hRead => ?_
    cases current? with
    | none => exact trivial
    | some current =>
      refine looks_owned.andThen fun _ h₄ hExt₄ => Safe.ite (fun _ => ?_) fun _ => trivial
      have hSeen : Seen h₄ current := (hRead current rfl).1.mono hExt₄
      exact Safe.seq (sound_transition hSeen .cancel) fun _ _ _ _ => trivial

variable {reason : RetireReason}

theorem looks_retireSuperseded : Looks
    (retireSuperseded cfg current expectedActionDigest expectedGateRequestId reason) := by
  repeat refine .seq (by simp) fun _ => ?_
  exact trivial

/-- A card is retired by a transition that the code asks for elsewhere too. -/
theorem permitted_retireArgs (reason : RetireReason)
    (hState : op.state = .waitingLocalConfirm ∨ op.state = .ready) :
    Permitted cfg h op (retireArgs reason) := by
  cases reason with
  | expired => exact .expire hState
  | exception => exact .abandon _
  | other reason => exact .cancel

theorem knowing_retireCurrent : Knowing cfg current anything
      (retireCurrent cfg current expectedActionDigest expectedGateRequestId reason) := by
  refine looks_currentRequest.known fun request => looks_getTaskBinding.known fun binding =>
    looks_orRaise.known fun request => looks_orRaise.known fun binding => .require fun _ =>
    .ite (fun hOpen => ?_) fun _ => .require fun _ => .ret
  exact looks_now.known fun t => .require fun _ =>
    .answer (.transition fun _ => permitted_retireArgs reason hOpen.1)

theorem sound_retireOwnedConfirmation :
    Sound cfg anything (retireOwnedConfirmation cfg pid session expectedActionDigest
      expectedGateRequestId reason) h := by
  refine Safe.seq sound_byTask fun op? h₁ _ _ => ?_
  cases op? with
  | none => exact trivial
  | some op =>
    refine looks_lifecycleOwner.andThen fun _ h₂ _ => ?_
    refine sound_executionGuard (fun _ _ _ _ _ => trivial) fun h₃ _ => ?_
    refine Safe.seq sound_reload fun current h₄ _ hSeen => ?_
    refine looks_lifecycleOwner.andThen fun _ h₅ hExt₅ => ?_
    exact Safe.ite (fun _ => looks_retireSuperseded.harmless h₅)
      fun _ => knowing_retireCurrent h₅ (hSeen.mono hExt₅)

/-! ## Renewal, reconciliation, takeover -/

/-- A renewal is a step where the operation's send has not started, or may be
repeated. -/
theorem knowing_renewConfirmation {policyVersion : String}
    (hTool : op.sendStarted = true → op.remoteTool ∉ nonIdempotentTools) :
    Knowing cfg op anything (renewConfirmation cfg session op context policyVersion) := by
  refine looks_now.known fun t => looks_orRaise.known fun session => .require fun _ =>
    .require fun _ => .require fun _ => looks_gate.known fun request =>
    looks_now.known fun t => .ite (fun _ => .ite (fun hWait => ?_) fun _ _ _ => trivial)
      fun _ => ?_
  · exact .refuse (.transition fun _ => .expire (.inl hWait.1))
  · exact (Knowing.transition fun _ => .renew _ _ _ _ hTool).quiet

theorem knowing_reconcileClosed (hTool : op.remoteTool ∉ nonIdempotentTools) :
    Knowing cfg op anything (reconcileClosed cfg session policy op) := by
  refine .require fun _ => Looks.known (.ofExcept _) fun arguments =>
    looks_verifiedRead.known fun read => looks_read.known fun decision =>
    Looks.known (.ofExcept _) fun decision => ?_
  split
  · exact (Knowing.transition fun _ => .settle .verifiedSuccess _ none none (by simp)).quiet
  · exact (Knowing.transition fun _ => .settle .failed _ none none (by simp)).quiet
  · exact .ret
  · exact knowing_renewConfirmation fun _ => hTool

theorem knowing_reconcile : Knowing cfg op anything (reconcile cfg pid session op) := by
  refine looks_owned.known fun _ => looks_recoveryPolicy.known fun policy =>
    .require fun hTool h hSeen => ?_
  have hRecover : Sound cfg (fun op' h' => Seen h' op' ∧ op'.remoteTool = op.remoteTool)
      (recoverSending cfg pid session op) h :=
    Safe.ite (fun _ => knowing_recover h hSeen) fun _ => ⟨hSeen, rfl⟩
  refine Safe.seq hRecover fun op' h' _ hOp' => ?_
  exact knowing_reconcileClosed (hOp'.2 ▸ hTool) h' hOp'.1

theorem knowing_takeoverLocked : Knowing cfg op anything (takeoverLocked cfg pid session op) := by
  refine looks_recoveryPolicy.known fun policy =>
    looks_takeoverContext.known fun context h hSeen => ?_
  refine Safe.seq (knowing_closeSending h hSeen) fun op h' _ hSeen' => ?_
  refine require_seq fun hManual => Safe.ite (fun hSent => ?_) fun hSent => ?_
  · refine Safe.seq (sound_transition hSeen' (.takeover _ _ hSent)) fun rebound h'' _ hUpd => ?_
    exact knowing_reconcile h'' hUpd.1
  · exact knowing_renewConfirmation (fun hTrue => absurd hTrue hSent) h' hSeen'

theorem sound_takeover : Sound cfg anything (takeover cfg pid session op) h := by
  refine sound_executionGuard (fun _ _ _ _ _ => trivial) fun h₁ _ => ?_
  exact Safe.seq sound_reloadCurrent fun current h₂ _ hRead => knowing_takeoverLocked h₂ hRead.1

/-! ## All calls -/

theorem sound_withLoaded {call : WorkflowOperation δ → Call δ α}
    (hCall : ∀ op, Knowing cfg op anything (call op)) :
    Sound cfg anything (withLoaded operationId tenantId userId call) h := by
  refine Safe.seq sound_load fun op? h₁ _ hRead => ?_
  refine Safe.seq sound_orRaise fun op h₂ hExt₂ hop => ?_
  exact hCall op h₂ ((hRead op hop).1.mono hExt₂)

theorem sound_governedConfirmation :
    Sound cfg anything (governedConfirmation cfg pid session) h := by
  refine Safe.seq sound_byTask fun op? h₁ _ _ => ?_
  cases op? with
  | none => exact trivial
  | some op =>
    refine sound_executionGuard (fun _ _ _ _ _ => trivial) fun h₂ _ => ?_
    refine Safe.seq sound_reload fun current h₃ _ hSeen => ?_
    exact knowing_ensureConfirmation.answer h₃ hSeen

theorem sound_rebindGovernedConfirmation :
    Sound cfg anything (rebindGovernedConfirmation cfg pid session expectedActionDigest
      expectedGateRequestId) h := by
  refine Safe.seq sound_byTask fun op? h₁ _ _ => ?_
  cases op? with
  | none => exact trivial
  | some op =>
    refine Safe.ite (fun _ => trivial) fun _ => ?_
    refine sound_executionGuard (fun _ _ _ _ _ => trivial) fun h₂ _ => ?_
    exact Safe.seq sound_reload fun current h₃ _ hSeen => knowing_rebindCurrentSession h₃ hSeen

theorem sound_quiet {call : Call δ α} (hCall : Sound cfg anything call h) :
    Sound cfg anything (quiet call) h :=
  Safe.ended hCall

theorem ServiceCall.sound {p : Call δ Unit} (hCall : ServiceCall cfg pid p) (h : List (World δ)) :
    Sound cfg anything p h := by
  cases hCall with
  | start => exact sound_quiet sound_start
  | ensureConfirmation => exact sound_quiet (sound_withLoaded fun _ => knowing_ensureConfirmation)
  | governedConfirmation => exact sound_quiet sound_governedConfirmation
  | rebind => exact sound_quiet sound_rebindGovernedConfirmation
  | resume => exact sound_quiet sound_resume
  | recover => exact sound_quiet (sound_withLoaded fun _ => knowing_recover.quiet)
  | reconcile => exact sound_quiet (sound_withLoaded fun _ => knowing_reconcile)
  | takeover => exact sound_quiet (sound_withLoaded fun _ _ _ => sound_takeover)
  | discard => exact sound_quiet sound_discard
  | retire => exact sound_quiet sound_retireOwnedConfirmation

theorem EnvStep.step {w w' : World δ} (hEnv : EnvStep cfg w w') (t : List (World δ)) :
    Step cfg (w :: t) w' := by
  cases hEnv with
  | change e => exact .env w t e
  | decide d => exact .decide w t d
  | request r _ hFree => exact .request w t r hFree

/-- **Every interleaving of service calls is a run of the system.** -/
theorem ServiceRun.runs {ps : Procs (World δ) Failure} (hPool : ServiceRun cfg h ps) : Runs cfg h :=
  (PoolRun.refines (fun _ t _ hEnv => hEnv.step t) (fun pid w t => step_releaseGuard pid w t)
    (fun _ _ hCall h _ => hCall.sound h) hPool).1

end EternalAI.Mcp
