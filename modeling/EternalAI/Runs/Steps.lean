import EternalAI.Runs.Service

/-!
# Browser runs — what one step can do

Whatever calls are interleaved, the rows of a run move by whole transactions.
`RunMove` says what a transaction may do to the run, its task and the journal, with
everything it has checked on the locked row; lifecycle and writes are both proved
from it.

* `StoreRun.steps` — the states of every interleaving are a run of such moves.
-/

namespace EternalAI.Runs

open Lib List Safe
open Dispatch (Str Time)
open Leases (Bytes Owner)

variable {env : RunEnv} {s s' : State} {h : List State} {answers : Answers} {ack : Ack}

def State.next (s : State) (run : Run) : State :=
  { s with run := { run with stateRevision := s.run.stateRevision + 1 } }

def State.Says (s : State) (id : EventId) (payload : Payload) : Prop :=
  ∃ event ∈ s.events, event.id = id ∧ event.payload = payload

/-- The events of a reservation: the confirmation is consumed now, or was consumed
with the same facts. -/
inductive Consumes (s : State) (facts : Consumed) : List Event → Prop
  | now {revision : Nat} : s.event (.writeConsumed facts.requestId) = none →
      Consumes s facts [⟨.writeConsumed facts.requestId, revision, .writeConsumed facts⟩]
  | before : s.Says (.writeConsumed facts.requestId) (.writeConsumed facts) → Consumes s facts []

def Payload.plain : Payload → Bool
  | .writePrepared _ | .writeConsumed _ | .writeSend _ | .fillStopSend _ | .writeBarrier _
  | .runStep _ => false
  | .terminal .. | .fillStopReceipt _ | .handoffSealed _ | .handoffChecked .. | .handoffClosed _
  | .traversalTerminal _ => true

inductive RunMove : State → State → Prop
  | idle {s : State} : RunMove s s
  | around {s : State} {clock : Time} {gates : Str → Option GateRow}
      {bindings : Bytes → Option (List SkillBinding)} :
      RunMove s { s with clock, gates, bindings }
  | claimed {s : State} {workerId : Str} {deadline : Time} : s.run.status.active →
      RunMove s (s.next { s.run with
        workerId := some workerId
        workerEpoch := s.run.workerEpoch + 1
        workerDeadline := some deadline })
  | renewed {s : State} {deadline : Time} : s.run.status.active →
      RunMove s (s.next { s.run with workerDeadline := some deadline })
  | advanced {s : State} {settles : Bool} {phase : RunPhase} {effect : RunEffect} {task : Task} :
      s.run.status.active → s.run.advances settles phase effect →
      (phase.status = s.run.status ∧ task = s.task ∨ task.status = phase.status.task) →
      RunMove s {
        s.next { s.run with phase := some phase, status := phase.status, effect := effect } with
        task := task }
  | leased {s : State} {providerKey : Str} {manifestDigest : Bytes} {leaseEpoch : Nat} :
      s.run.status.active → s.run.leaseEpoch = none →
      RunMove s (s.next { s.run with
        providerKey := some providerKey
        providerManifestDigest := some manifestDigest
        leaseEpoch := some leaseEpoch })
  | verified {s : State} {result : Envelope} {resultDigest evidenceDigest : Bytes} :
      s.run.status.active → s.run.phase = some .running ∨ s.run.phase = some .verifying →
      RunMove s (s.next { s.run with
        verification := some .verified
        verificationEvidenceDigest := some evidenceDigest
        phase := some .verifying
        resultDigest := some resultDigest
        protectedResult := some result })
  | captured {s : State} (operationId generationId : Option Str) (status : CaptureStatus) :
      s.run.status.active →
      RunMove s (s.next { s.run with
        captureOperationId := operationId
        profileGenerationId := generationId
        captureStatus := status })
  | cancelRequested {s : State} : s.run.status.active →
      RunMove s (s.next { s.run with cancelRequested := true })
  | cancelAcknowledged {s : State} : s.run.status.active → s.run.cancelRequested →
      RunMove s (s.next { s.run with cancelAcknowledged := true })
  | ended {s : State} {status : RunStatus} {errorCode : Option Str}
      {verification : Option RunVerification} {dispatchFailureCode : Option DispatchFailureCode}
      {events : List Event} :
      s.run.status.active → s.run.ends status errorCode verification →
      events.head? = some ⟨.terminal s.run.admission.runId, s.run.stateRevision + 1,
        .terminal status errorCode (s.run.stateRevision + 1)⟩ →
      (∀ event ∈ events, event.payload.plain) → (∀ event ∈ events, s.event event.id = none) →
      (events.map Event.id).Nodup →
      RunMove s { s.next { s.run with
        status := status
        phase := none
        verification := verification
        errorCode := errorCode
        dispatchFailureCode := dispatchFailureCode
        terminalRevision := some (s.run.stateRevision + 1)
        terminalEventId := some (.terminal s.run.admission.runId) } with
        task := ⟨status.task, errorCode⟩
        events := s.events ++ events }
  | cleaned {s : State} {cleanup : RunCleanup} :
      RunMove s (s.next { s.run with cleanup := cleanup })
  | waits {s : State} {event : Event} :
      s.run.status.active → s.run.verification = none →
      s.run.phase = some .running ∨ s.run.phase = some .verifying →
      event.payload.plain → s.event event.id = none →
      RunMove s { s.next { s.run with phase := some .waitingUser, status := .waitingUser } with
        task := ⟨.waitingUser, none⟩
        events := s.events ++ [event] }
  | resumes {s : State} : s.run.status.active → s.run.verification = none →
      RunMove s { s.next { s.run with phase := some .verifying, status := .running } with
        task := ⟨.running, none⟩ }
  | bumped {s : State} : s.run.status.active → RunMove s (s.next s.run)
  | noted {s : State} {event : Event} : s.run.status.active → event.payload.plain →
      s.event event.id = none → RunMove s { s with events := s.events ++ [event] }
  | prepared {s : State} {preparation : WritePreparation} {revision : Nat} :
      s.run.status.active → s.event (.writePrepared s.run.admission.runId) = none →
      RunMove s { s.next s.run with events := s.events ++
        [⟨.writePrepared s.run.admission.runId, revision, .writePrepared preparation⟩] }
  | reserved {s : State} {preparation : WritePreparation} {facts : Consumed} {events : List Event}
      {event : Event} :
      s.run.status.active → s.Says (.writePrepared s.run.admission.runId)
        (.writePrepared preparation) →
      facts = ⟨preparation.requestId, preparation.actionDigest, s.run.epochs⟩ →
      Consumes s facts events → s.event event.id = none →
      (∃ sequence stepId, event.id = .writeSend s.run.admission.runId sequence ∧
        event.payload = .writeSend ⟨preparation.requestId, preparation.actionDigest, sequence,
          stepId, s.run.epochs⟩) ∨
      (event.id = .fillStopSend s.run.admission.runId ∧
        event.payload = .fillStopSend ⟨preparation.requestId, preparation.actionDigest,
          preparation.writeStepsDigest, s.run.epochs⟩) →
      RunMove s { s.next s.run with events := s.events ++ events ++ [event] }
  | barred {s : State} (send : Send) {revision : Nat} :
      s.run.status.active →
      s.Says (.writeSend s.run.admission.runId send.sequence) (.writeSend send) →
      send.epochs = s.run.epochs →
      s.event (.writeBarrier s.run.admission.runId send.sequence) = none →
      RunMove s { s with events := s.events ++
        [⟨.writeBarrier s.run.admission.runId send.sequence, revision,
          .writeBarrier ⟨send.sequence, send.stepId, s.run.epochs⟩⟩] }
  | stepped {s : State} (step : TeachingStep) {revision : Nat} :
      s.run.status.active → s.run.effect ≠ .unknown →
      s.event (.runStep s.run.admission.runId step.sequence) = none →
      (step.effect = .mayWrite →
        (∃ send, s.Says (.writeSend s.run.admission.runId step.sequence) (.writeSend send) ∧
          send.sequence = step.sequence ∧ send.stepId = step.stepId ∧
          send.epochs = s.run.epochs) ∧
        s.Says (.writeBarrier s.run.admission.runId step.sequence)
          (.writeBarrier ⟨step.sequence, step.stepId, s.run.epochs⟩)) →
      RunMove s { s.next { s.run with effect := .acknowledged } with events := s.events ++
        [⟨.runStep s.run.admission.runId step.sequence, revision, .runStep step⟩] }

def RunStep : List State → State → Prop
  | s :: _, s' => RunMove s s'
  | [], _ => False

/-! ## The parts of a transaction -/

/-- What is locked is the row of the run, active unless the caller takes others. -/
theorem locked_ok {expected current : Run} {fence : Fence}
    (hOk : s.locked expected fence answers = .ok current) :
    current = s.run ∧ (fence.terminalOk = false → s.run.status.active) := by
  obtain ⟨_, -, hOk⟩ := bind_ok.mp hOk
  obtain ⟨found, hFound, hOk⟩ := bind_ok.mp hOk
  obtain ⟨-, hRead⟩ := ensure_bind_ok.mp hFound
  cases hRead
  simp only [bind_ok, ensure_ok, exists_const] at hOk
  -- of the fence only the check of the status matters here; the rest is what a stale claim fails
  obtain ⟨⟨-, -, hActive⟩, -, _, -, hOk⟩ := hOk
  cases hOk
  refine ⟨rfl, fun hFence => ?_⟩
  rcases hActive with hTerminal | hActive
  · rw [hFence] at hTerminal
    cases hTerminal
  · exact hActive

theorem update_ok {change : Run → Run} (hOk : s.update change = .ok s') :
    s' = s.next (change s.run) := by
  obtain ⟨-, hOk⟩ := ensure_bind_ok.mp hOk
  cases hOk
  rfl

variable {status : RunStatus} {errorCode : Option Str}

theorem transitionTask_ok (hOk : s.transitionTask status errorCode = .ok s') :
    s' = { s with task := ⟨status.task, errorCode⟩ } := by
  obtain ⟨-, hOk⟩ := ensure_bind_ok.mp hOk
  cases hOk
  rfl

variable {event : Event}

theorem appendEvent_ok (hOk : s.appendEvent event = .ok s') :
    s.event event.id = none ∧ s' = { s with events := s.events ++ [event] } := by
  obtain ⟨hFresh, hOk⟩ := ensure_bind_ok.mp hOk
  cases hOk
  exact ⟨hFresh, rfl⟩

variable {id : EventId}

theorem says_of_event (hFound : s.event id = some event) : s.Says id event.payload :=
  ⟨event, lookup_mem hFound, lookup_key hFound, rfl⟩

variable {α : Type}

theorem writeEvent_some {facts : Payload → Option α} {make : α → Payload} {found : α}
    (hFacts : ∀ payload x, facts payload = some x → payload = make x)
    (hOk : s.writeEvent id facts = .ok (some found)) : s.Says id (make found) := by
  unfold State.writeEvent at hOk
  repeat' split at hOk
  all_goals cases hOk
  exact hFacts _ _ ‹_› ▸ says_of_event ‹_›

/-! ## The life of a run -/

variable {claim : Run}

section

variable {Q : α → Prop}

theorem locked_post {expected : Run} {fence : Fence} {k : Run → Except RunError α}
    (hk : (fence.terminalOk = false → s.run.status.active) → Post (k s.run) Q) :
    Post (s.locked expected fence answers >>= k) Q := by
  refine .bind fun current hLocked => ?_
  obtain ⟨rfl, hActive⟩ := locked_ok hLocked
  exact hk hActive

variable {k : State → Except RunError α}

theorem update_post {change : Run → Run} (hk : Post (k (s.next (change s.run))) Q) :
    Post (s.update change >>= k) Q :=
  .bind fun _ hUpdate => update_ok hUpdate ▸ hk

theorem task_post (hk : Post (k { s with task := ⟨status.task, errorCode⟩ }) Q) :
    Post (s.transitionTask status errorCode >>= k) Q :=
  .bind fun _ hTask => transitionTask_ok hTask ▸ hk

theorem append_post (hk : s.event event.id = none →
      Post (k { s with events := s.events ++ [event] }) Q) :
    Post (s.appendEvent event >>= k) Q := by
  refine .bind fun s' hAppend => ?_
  obtain ⟨hFresh, rfl⟩ := appendEvent_ok hAppend
  exact hk hFresh

end

abbrev Moves {α : Type} (s : State) (x : Except RunError (α × State)) : Prop :=
  Post x fun r => RunMove s r.2

variable {workerId : Str} {duration : Time}

theorem claimCandidate_move {before : Run} :
    Moves s (s.claimCandidate before workerId duration answers) := by
  refine .bind fun current hFound => ?_
  obtain ⟨-, hRead⟩ := ensure_bind_ok.mp hFound
  cases hRead
  refine .ensure fun ⟨_, _, hActive, _⟩ => .bind fun _ _ => .ensure fun _ => update_post (.ret ?_)
  exact .claimed hActive

theorem refreshWorker_move : Moves s (s.refreshWorker claim duration answers) := by
  refine locked_post fun hActive => .ensure fun _ => .ensure fun _ => update_post (.ret ?_)
  exact .renewed (hActive rfl)

theorem renew_move : Moves s (s.renew claim duration answers) := by
  refine locked_post fun hActive => update_post (.ret ?_)
  exact .renewed (hActive rfl)

theorem advance_move {phase : RunPhase} {effect : RunEffect} :
    Moves s (s.advance claim phase effect answers) := by
  refine locked_post fun hActive => .ensure fun hAdvances => update_post ?_
  split
  · rename_i hStatus
    refine .ret ?_
    exact .advanced (hActive rfl) hAdvances (.inl ⟨hStatus, rfl⟩)
  · refine task_post (.ret ?_)
    exact .advanced (hActive rfl) hAdvances (.inr rfl)

theorem attachLease_move {providerKey : Str} {manifestDigest : Bytes} {leaseEpoch : Nat} :
    Moves s (s.attachLease claim providerKey manifestDigest leaseEpoch answers) := by
  refine .ensure fun _ => locked_post fun hActive => .ensure fun ⟨hNone, _⟩ => .bind fun _ _ =>
    update_post (.ret ?_)
  exact .leased (hActive rfl) hNone

theorem persistVerified_move {result : Envelope} {resultDigest evidenceDigest : Bytes}
    {rejectCancel : Bool} :
    Moves s (s.persistVerified claim result resultDigest evidenceDigest rejectCancel answers) := by
  refine .ensure fun _ => locked_post fun hActive => .ensure fun _ => .ensure fun ⟨_, hPhase⟩ =>
    .bind fun _ _ => update_post (.ret ?_)
  exact .verified (hActive rfl) hPhase

theorem prepareCapture_move {operationId : Str} :
    Moves s (s.prepareCapture claim operationId answers) := by
  refine locked_post fun hActive => .ensure fun _ => update_post (.ret ?_)
  exact .captured _ _ _ (hActive rfl)

theorem transitionCapture_move {status : CaptureStatus} {generationId : Option Str} :
    Moves s (s.transitionCapture claim status generationId answers) := by
  refine .ensure fun _ => locked_post fun hActive => .ensure fun _ => update_post (.ret ?_)
  exact .captured _ _ _ (hActive rfl)

theorem requestCancel_move :
    Moves s (s.requestCancel claim answers) := by
  refine locked_post fun hActive => ?_
  split
  · exact .ret .idle
  · rename_i hOpen
    refine update_post (.ret ?_)
    exact .cancelRequested (Decidable.not_not.mp (not_or.mp hOpen).1)

theorem acknowledgeCancel_move :
    Moves s (s.acknowledgeCancel claim answers) := by
  refine locked_post fun hActive => .ensure fun hRequested => .bind fun _ _ =>
    update_post (.ret ?_)
  exact .cancelAcknowledged (hActive rfl) hRequested

variable {verification : Option RunVerification} {code : Option DispatchFailureCode}

/-- The end of a run: what was demanded of it, and the rows that are written. -/
theorem finalizeLocked_ok (hOk : s.finalizeLocked status errorCode verification code = .ok s') :
    s.run.ends status errorCode (verification.or s.run.verification) ∧
    s.event (.terminal s.run.admission.runId) = none ∧
    s' = { s.next { s.run with
      status := status
      phase := none
      verification := verification.or s.run.verification
      errorCode := errorCode
      dispatchFailureCode := code
      terminalRevision := some (s.run.stateRevision + 1)
      terminalEventId := some (.terminal s.run.admission.runId) } with
      task := ⟨status.task, errorCode⟩
      events := s.events ++ [⟨.terminal s.run.admission.runId, s.run.stateRevision + 1,
        .terminal status errorCode (s.run.stateRevision + 1)⟩] } := by
  obtain ⟨hEnds, hOk⟩ := ensure_bind_ok.mp hOk
  obtain ⟨s₁, hAppend, hOk⟩ := bind_ok.mp hOk
  obtain ⟨s₂, hUpdate, hTask⟩ := bind_ok.mp hOk
  obtain ⟨hFresh, rfl⟩ := appendEvent_ok hAppend
  refine ⟨hEnds, hFresh, ?_⟩
  rw [transitionTask_ok hTask, update_ok hUpdate]
  rfl

theorem finalize_move : Moves s (s.finalize claim status errorCode verification code answers) := by
  refine .ensure fun _ => locked_post fun hActive => .bind fun s₁ hFinal => .ret ?_
  obtain ⟨hEnds, hFresh, rfl⟩ := finalizeLocked_ok hFinal
  refine .ended (hActive rfl) hEnds rfl (fun event hMem => ?_) (fun event hMem => ?_)
    (nodup_singleton _)
  · rw [mem_singleton.mp hMem]
    rfl
  · rw [mem_singleton.mp hMem]
    exact hFresh

theorem recordCleanup_move {cleanup : RunCleanup} :
    Moves s (s.recordCleanup claim cleanup answers) := by
  refine .ensure fun _ => .bind fun current _ => ?_
  split
  · refine .ensure fun _ => .ret ?_
    exact .idle
  · refine update_post (.ret ?_)
    exact .cleaned

/-! ## Handoff -/

theorem enterHandoff_move {content : HandoffSeal} :
    Moves s (s.enterHandoff env claim content answers) := by
  refine .bind fun _ _ => locked_post fun hActive => .bind fun fillStop _ =>
    .ensure fun ⟨_, _, hPhase, _, hUnverified, _⟩ => .bind fun receipt _ => .ensure fun _ =>
    .bind fun before _ => .ensure fun _ => update_post (task_post (append_post fun hFresh =>
    .ret ?_))
  exact .waits (hActive rfl) hUnverified hPhase rfl hFresh

theorem requestHandoffCheck_move :
    Moves s (s.requestHandoffCheck env claim answers) := by
  refine locked_post fun hActive => ?_
  refine .bind fun record _ => ?_
  cases record with
  | none => exact .fail
  | some facts =>
    refine .ensure fun ⟨hActive, hUnverified, _⟩ => .ensure fun _ => ?_
    split
    · exact .ret .idle
    · refine .ensure fun _ => update_post (task_post (.ret ?_))
      exact .resumes hActive hUnverified

theorem settleHandoffCheck_move {outcome : HandoffSettleOutcome} :
    Moves s (s.settleHandoffCheck env claim outcome answers) := by
  refine locked_post fun hActive => .bind fun fillStop _ => .ensure fun _ => .bind fun record _ =>
    .ensure fun ⟨_, _, hPhase, _, hUnverified⟩ => .ensure fun _ =>
    update_post (task_post (append_post fun hFresh => .ret ?_))
  exact .waits (hActive rfl) hUnverified (.inr hPhase) rfl hFresh

variable {reason : HandoffReason}

theorem closeHandoff_move (hActive : s.run.status.active) : Moves s (s.closeHandoff reason) := by
  refine .bind fun s₁ hFinal => append_post fun hFresh' => .ret ?_
  obtain ⟨hEnds, hFresh, rfl⟩ := finalizeLocked_ok hFinal
  -- the closing event is new before the end of the run, as it is new after it
  have hOld : s.event (.handoffClosed s.run.admission.runId) = none := by
    have hBoth : (s.event (.handoffClosed s.run.admission.runId)).or _ = none :=
      lookup_insert.symm.trans hFresh'
    exact (Option.or_eq_none_iff.mp hBoth).1
  rw [append_assoc]
  refine .ended hActive hEnds rfl (fun event hMem => ?_) (fun event hMem => ?_) (by simp)
  · rcases mem_pair.mp hMem with rfl | rfl
    · rfl
    · rfl
  · rcases mem_pair.mp hMem with rfl | rfl
    · exact hFresh
    · exact hOld

theorem finalizeHandoff_move : Moves s (s.finalizeHandoff claim reason answers) := by
  refine .ensure fun _ => locked_post fun hActive => .bind fun record _ => ?_
  cases record with
  | none => exact .fail
  | some facts =>
    refine .ensure fun _ => .ensure fun _ => ?_
    exact closeHandoff_move (hActive rfl)

theorem expireLostHandoff_move :
    Moves s (s.expireLostHandoff env claim answers) := by
  refine locked_post fun hActive => .bind fun record _ => .ensure fun _ => .bind fun reason _ =>
    ?_
  exact closeHandoff_move (hActive rfl)

theorem quarantine_move :
    Moves s (s.recordHistoricalHandoffQuarantine claim answers) := by
  refine .bind fun current _ => .bind fun sealed _ => .bind fun closed _ => .ensure fun _ =>
    .bind fun _ _ => ?_
  split
  · exact .ret .idle
  · refine update_post (.ret ?_)
    exact .cleaned

/-! ## Writes -/

variable {preparation : WritePreparation} {facts : Consumed}

theorem preparedWrite_ok (hOk : s.preparedWrite env = .ok preparation) :
    s.Says (.writePrepared s.run.admission.runId) (.writePrepared preparation) := by
  obtain ⟨found, hFound, hOk⟩ := bind_ok.mp hOk
  cases found with
  | none => cases hOk
  | some found =>
    obtain ⟨-, hOk⟩ := ensure_bind_ok.mp hOk
    cases hOk
    exact writeEvent_some (by rintro ⟨⟩ _ ⟨⟩; rfl) hFound

theorem recordWritePreparation_move :
    Moves s (s.recordWritePreparation env claim preparation answers) := by
  refine locked_post fun hActive => .bind fun existing hExisting => ?_
  cases existing with
  | some found =>
    refine .bind fun recorded _ => .ensure fun _ => .ret ?_
    exact .idle
  | none =>
    refine .ensure fun _ => .bind fun manifest _ => .ensure fun _ => .bind fun digest _ =>
      .ensure fun _ => .ensure fun _ => .bind fun _ _ => append_post fun hFresh =>
      update_post (.ret ?_)
    exact .prepared (hActive rfl) hFresh

theorem consume_ok {previous : List TeachingStep} (hOk : s.consume previous facts = .ok s') :
    ∃ events, Consumes s facts events ∧ s' = { s with events := s.events ++ events } := by
  obtain ⟨consumed, hConsumed, hOk⟩ := bind_ok.mp hOk
  cases consumed with
  | none =>
    obtain ⟨-, hOk⟩ := ensure_bind_ok.mp hOk
    obtain ⟨hFresh, rfl⟩ := appendEvent_ok hOk
    exact ⟨_, .now hFresh, rfl⟩
  | some found =>
    obtain ⟨hSame, hOk⟩ := ensure_bind_ok.mp hOk
    cases hOk
    have hSays := writeEvent_some (by rintro ⟨⟩ _ ⟨⟩; rfl) hConsumed
    exact ⟨[], .before (hSame ▸ hSays), by rw [append_nil]⟩

theorem event_none_of_append {events : List Event}
    (hFresh : State.event { s with events := s.events ++ events } id = none) :
    s.event id = none := by
  unfold State.event Lib.lookup at hFresh ⊢
  rw [find?_append] at hFresh
  exact (Option.or_eq_none_iff.mp hFresh).1

variable {sequence : Nat}

variable {command : ActionCommand} {rule : SiteStepRule}

theorem reserveWriteDispatch_move {spec : ReadSpec} :
    Moves s (s.reserveWriteDispatch env claim command rule spec sequence answers) := by
  refine .ensure fun _ => locked_post fun hActive => .ensure fun _ => .bind fun manifest _ =>
    .bind fun preparation hPrepared => .ensure fun _ => .bind fun digest _ => .ensure fun _ =>
    .bind fun _ _ => .bind fun previous _ => .ensure fun _ => .bind fun _ _ =>
    .bind fun s₁ hConsume => .bind fun before _ => .ensure fun _ => append_post fun hFresh =>
      update_post (.ret ?_)
  -- the send is new in the journal to which the consumption was appended, if it was
  obtain ⟨events, hConsumes, rfl⟩ := consume_ok hConsume
  exact .reserved (hActive rfl) (preparedWrite_ok hPrepared) rfl hConsumes
    (event_none_of_append hFresh) (.inl ⟨sequence, command.step.stepId, rfl, rfl⟩)

theorem reserveFillStop_move :
    Moves s (s.reserveFillStop env claim answers) := by
  refine locked_post fun hActive => .bind fun manifest _ => .ensure fun _ =>
    .bind fun preparation hPrepared => .bind fun _ _ => .bind fun digest _ => .ensure fun _ =>
    .bind fun consumed _ => .bind fun sent _ => .ensure fun _ => append_post fun hNew =>
    append_post fun hFresh => update_post (.ret ?_)
  exact .reserved (hActive rfl) (preparedWrite_ok hPrepared) rfl (.now hNew)
    (event_none_of_append hFresh) (.inr ⟨rfl, rfl⟩)

theorem assertWriteReservation_move :
    Moves s (s.assertWriteReservation env claim command sequence answers) := by
  refine locked_post fun hActive => .ensure fun _ => .bind fun preparation _ => .bind fun _ _ =>
    .bind fun send hSend => .ensure fun hSame => .bind fun previous _ => .ensure fun _ =>
    .bind fun manifest _ => .bind fun _ _ => .bind fun before _ => .ensure fun _ =>
    append_post fun hFresh => .ret ?_
  rw [hSame] at hSend
  have hSays := writeEvent_some (by rintro ⟨⟩ _ ⟨⟩; rfl) hSend
  exact .barred ⟨preparation.requestId, preparation.actionDigest, sequence, command.step.stepId,
    s.run.epochs⟩ (hActive rfl) hSays rfl hFresh

/-- A writing step was reserved and passed the barrier, under the epochs of the run. -/
theorem sentStep_ok {step : SkillStep} {u : Unit} (hOk : s.sentStep sequence step = .ok u)
    (hWrites : step.effect = .mayWrite) :
    (∃ send, s.Says (.writeSend s.run.admission.runId sequence) (.writeSend send) ∧
      send.sequence = sequence ∧ send.stepId = step.stepId ∧ send.epochs = s.run.epochs) ∧
    s.Says (.writeBarrier s.run.admission.runId sequence)
      (.writeBarrier ⟨sequence, step.stepId, s.run.epochs⟩) := by
  unfold State.sentStep at hOk
  rw [if_pos hWrites] at hOk
  obtain ⟨send, hSend, hOk⟩ := bind_ok.mp hOk
  obtain ⟨⟨facts, hFound, hFields⟩, hOk⟩ := ensure_bind_ok.mp hOk
  obtain ⟨barrier, hBarrier, hOk⟩ := bind_ok.mp hOk
  rw [Option.mem_def.mp hFound] at hSend
  rw [ensure_ok.mp hOk] at hBarrier
  exact ⟨⟨facts, writeEvent_some (by rintro ⟨⟩ _ ⟨⟩; rfl) hSend, hFields⟩,
    writeEvent_some (by rintro ⟨⟩ _ ⟨⟩; rfl) hBarrier⟩

theorem recordStep_move {scope : ScopeStamp} {receipt : DispatchReceipt} {policyDigest : Bytes} :
    Moves s (s.recordStep env claim command rule scope receipt policyDigest sequence answers) := by
  refine .ensure fun _ => .ensure fun _ => ?_
  cases receipt.evidenceDigest with
  | none => exact .fail
  | some evidence =>
    refine .ensure fun _ => locked_post fun hActive => .ensure fun ⟨⟨_, _, _, hKnown⟩, _⟩ =>
      .bind fun manifest _ => .bind fun _ _ => .ensure fun _ => .bind fun primitive _ =>
      .bind fun previous _ => .ensure fun _ => .bind fun _ _ => .bind fun _ hSent =>
      append_post fun hFresh => update_post (.ret ?_)
    exact .stepped ⟨sequence, command.step.stepId, command.step.effect, command.step.operation,
      scope, command.target, policyDigest, manifest.skillVersion, manifest.skillDigest,
      command.binding, manifest.primitiveId command.step.stepId, env.ruleDigest primitive,
      evidence⟩ (hActive rfl) hKnown hFresh (sentStep_ok hSent)

theorem recordTraversalTerminal_move {pages : List PageEvidence} :
    Moves s (s.recordTraversalTerminal env claim pages sequence answers) := by
  refine .ensure fun _ => locked_post fun hActive => .ensure fun _ => .bind fun manifest _ => ?_
  split
  · exact .fail
  · split
    · exact .fail
    · refine .ensure fun _ => .bind fun previous _ => .ensure fun _ => .ensure fun _ =>
        .ensure fun _ => .bind fun before _ => .ensure fun _ => append_post fun hFresh => .ret ?_
      exact .noted (hActive rfl) rfl hFresh

theorem recordFillStop_move {report : FillStopReport} :
    Moves s (s.recordFillStop env claim report answers) := by
  refine locked_post fun hActive => .bind fun manifest _ => .ensure fun _ =>
    .bind fun existing _ => ?_
  cases existing with
  | some found =>
    refine .ensure fun _ => .ret ?_
    exact .idle
  | none =>
    refine append_post fun hFresh => .ret ?_
    exact .noted (hActive rfl) rfl hFresh

theorem assertFillStopReservation_move :
    Moves s (s.assertFillStopReservation env claim answers) := by
  refine .bind fun current _ => .bind fun manifest _ => .ensure fun _ => .bind fun preparation _ =>
    .bind fun _ _ => .bind fun send _ => .ensure fun _ => .ret ?_
  exact .idle

/-! ## Interleavings -/

theorem outside_move (hOutside : Outside s s') : RunMove s s' := by
  cases hOutside with
  | around _ => exact .around
  | audited hActive => exact .bumped hActive
  | validated hActive _ => exact .captured s.run.captureOperationId _ .validated hActive
  | promoted hActive _ =>
    exact .captured s.run.captureOperationId s.run.profileGenerationId .promoted hActive

abbrev Acts {α : Type} (p : Prog State RunError α) (h : List State) : Prop :=
  Safe Accepted RunStep (fun _ _ => True) p h

theorem write_acts {f : State → Except RunError (α × State)} (hf : ∀ s, Moves s (f s)) :
    Acts (write ack f) h :=
  Safe.transact (fun _ _ => RunMove.idle) fun s _ a s' hOk => hf s (a, s') hOk

theorem read_acts {f : State → α} : Acts (Prog.read f) h :=
  Safe.read (fun _ _ => RunMove.idle) fun _ _ _ _ => trivial

variable {owner : Owner}

theorem onRun_acts {taskId runId : Str} {f : Run → State → Except RunError (α × State)}
    (hf : ∀ initial s, Moves s (f initial s)) : Acts (onRun owner taskId runId ack f) h :=
  andThen read_acts fun _ => ofExcept_seq fun initial _ => write_acts (hf initial)

variable {ready busy : Bool}

theorem claimCandidate_acts : Acts (claimCandidate workerId duration ready busy answers ack) h := by
  refine andThen read_acts fun before => Safe.ite (fun _ => ?_) fun _ => trivial
  refine ofExcept_seq fun _ _ => require_seq fun _ => ?_
  exact andThen (write_acts fun _ => claimCandidate_move) fun _ => trivial

variable {ttlSeconds : Int}

theorem claimNext_acts : Acts (claimNext owner workerId ttlSeconds ready busy answers ack) h := by
  refine ofExcept_seq fun duration _ => andThen read_acts fun found =>
    Safe.ite (fun _ => ?_) fun _ => trivial
  refine andThen (caught claimCandidate_acts) fun result => ?_
  cases result with
  | ok run => exact trivial
  | error e => exact require_seq fun _ => trivial

theorem refreshWorker_acts : Acts (refreshWorker claim ttlSeconds answers ack) h := by
  refine ofExcept_seq fun duration _ => andThen read_acts fun found =>
    ofExcept_seq fun candidate _ => ofExcept_seq fun _ _ => ?_
  exact write_acts fun _ => refreshWorker_move

theorem renew_acts : Acts (renew claim ttlSeconds answers ack) h :=
  ofExcept_seq fun _ _ => write_acts fun _ => renew_move

theorem lifeCall_acts (call : LifeCall) : Acts (call.program env answers ack) h := by
  cases call with
  | claims => exact ended claimNext_acts
  | refreshes => exact ended refreshWorker_acts
  | renews => exact ended renew_acts
  | advances => exact ended (write_acts fun _ => advance_move)
  | attaches => exact ended (write_acts fun _ => attachLease_move)
  | verifies => exact ended (write_acts fun _ => persistVerified_move)
  | preparesCapture => exact ended (write_acts fun _ => prepareCapture_move)
  | movesCapture => exact ended (write_acts fun _ => transitionCapture_move)
  | cancels => exact ended (onRun_acts fun _ _ => requestCancel_move)
  | acknowledges => exact ended (write_acts fun _ => acknowledgeCancel_move)
  | finalizes => exact ended (write_acts fun _ => finalize_move)
  | cleans => exact ended (write_acts fun _ => recordCleanup_move)
  | entersHandoff => exact ended (write_acts fun _ => enterHandoff_move)
  | asksCheck => exact ended (onRun_acts fun _ _ => requestHandoffCheck_move)
  | settlesCheck => exact ended (write_acts fun _ => settleHandoffCheck_move)
  | closesHandoff => exact ended (write_acts fun _ => finalizeHandoff_move)
  | expiresHandoff => exact ended (onRun_acts fun _ _ => expireLostHandoff_move)
  | quarantines => exact ended (onRun_acts fun _ _ => quarantine_move)

theorem writeCall_acts (call : WriteCall) : Acts (call.program env answers ack) h := by
  cases call with
  | prepares => exact ended (write_acts fun _ => recordWritePreparation_move)
  | reserves => exact ended (write_acts fun _ => reserveWriteDispatch_move)
  | asserts => exact ended (write_acts fun _ => assertWriteReservation_move)
  | records => exact ended (write_acts fun _ => recordStep_move)
  | ends => exact ended (write_acts fun _ => recordTraversalTerminal_move)
  | reports => exact ended (write_acts fun _ => recordFillStop_move)
  | reservesFlow => exact ended (write_acts fun _ => reserveFillStop_move)
  | assertsFlow => exact ended (write_acts fun _ => assertFillStopReservation_move)

theorem StoreRun.steps {ps : Procs State RunError} (hRun : StoreRun env h ps) :
    Lib.Run Accepted RunStep h := by
  refine (PoolRun.refines (fun _ _ _ hOut => outside_move hOut) (fun _ _ _ => RunMove.idle)
    (fun _ p hp h _ => ?_) hRun).1
  obtain ⟨call, answers, ack, rfl⟩ := hp
  cases call with
  | life call => exact lifeCall_acts call
  | write call => exact writeCall_acts call

end EternalAI.Runs
