import EternalAI.Runs.Lifecycle

/-!
# Browser runs — confirmed writes happen once

A confirmation is consumed under the worker and the lease that reserve the first
send. In every interleaving of all operations, with workers that expire, die and are
replaced at any point:

* there is at most one consumption, and every reservation carries its epochs;
* each position is reserved at most once and passes the barrier at most once;
* a writing step is recorded only where its reservation and its barrier are in the
  journal, under the epochs the run then has;
* once the confirmation is consumed, nothing more is reserved, barred or recorded
  as written after a later claim of the run.

`Writes` says on which grounds an event is new in a step; `Kept` follows from it:
the ids of the journal are distinct, and every event rests on the earlier ones.
-/

namespace EternalAI.Runs

open Lib List
open Dispatch (Str Time)
open Leases (Bytes Owner)

variable {env : RunEnv} {s s' : State} {t h : List State} {event : Event}

/-- A reservation by this worker and lease, of one step or of a whole flow. -/
def Event.SendUnder (event : Event) (runId : Str) (c : Consumed) : Prop :=
  (∃ sequence stepId, event.id = .writeSend runId sequence ∧
    event.payload = .writeSend ⟨c.requestId, c.actionDigest, sequence, stepId, c.epochs⟩) ∨
  ∃ digest, event.id = .fillStopSend runId ∧
    event.payload = .fillStopSend ⟨c.requestId, c.actionDigest, digest, c.epochs⟩

/-- The step was reserved and passed the barrier, under these epochs. -/
structure State.Sent (s : State) (sequence : Nat) (stepId : Str) (epochs : Epochs) : Prop where
  send : ∃ facts : Send, s.Says (.writeSend s.run.admission.runId sequence) (.writeSend facts) ∧
    facts.sequence = sequence ∧ facts.stepId = stepId ∧ facts.epochs = epochs
  barrier : s.Says (.writeBarrier s.run.admission.runId sequence)
    (.writeBarrier ⟨sequence, stepId, epochs⟩)

/-- Why an event is new after a step from `s` to `s'`. -/
inductive Writes (s s' : State) : Event → Prop
  | plain {event : Event} : event.payload.plain → Writes s s' event
  | prepares {preparation : WritePreparation} {revision : Nat} :
      Writes s s' ⟨.writePrepared s.run.admission.runId, revision, .writePrepared preparation⟩
  | consumes {preparation : WritePreparation} {revision : Nat} :
      s.Says (.writePrepared s.run.admission.runId) (.writePrepared preparation) →
      Writes s s' ⟨.writeConsumed preparation.requestId, revision,
        .writeConsumed ⟨preparation.requestId, preparation.actionDigest, s.run.epochs⟩⟩
  | sends {event : Event} {c : Consumed} : c.epochs = s.run.epochs →
      s'.Says (.writeConsumed c.requestId) (.writeConsumed c) →
      event.SendUnder s.run.admission.runId c → Writes s s' event
  | bars {facts : Send} {revision : Nat} :
      s.Says (.writeSend s.run.admission.runId facts.sequence) (.writeSend facts) →
      facts.epochs = s.run.epochs →
      Writes s s' ⟨.writeBarrier s.run.admission.runId facts.sequence, revision,
        .writeBarrier ⟨facts.sequence, facts.stepId, s.run.epochs⟩⟩
  | steps {step : TeachingStep} {revision : Nat} :
      (step.effect = .mayWrite → s.Sent step.sequence step.stepId s.run.epochs) →
      Writes s s' ⟨.runStep s.run.admission.runId step.sequence, revision, .runStep step⟩

structure Grows (s s' : State) (new : List Event) : Prop where
  events : s'.events = s.events ++ new
  admission : s'.run.admission = s.run.admission
  epoch : s.run.workerEpoch ≤ s'.run.workerEpoch
  fresh : ∀ event ∈ new, s.event event.id = none
  nodup : (new.map Event.id).Nodup
  writes : ∀ event ∈ new, Writes s s' event

/-! ## One move -/

theorem grows_nil (hEvents : s'.events = s.events) (hSame : s'.run.admission = s.run.admission)
    (hEpoch : s.run.workerEpoch ≤ s'.run.workerEpoch) : Grows s s' [] where
  events := by rw [hEvents, append_nil]
  admission := hSame
  epoch := hEpoch
  fresh := fun _ hMem => nomatch hMem
  nodup := nodup_nil
  writes := fun _ hMem => nomatch hMem

theorem grows_one (hEvents : s'.events = s.events ++ [event])
    (hSame : s'.run.admission = s.run.admission) (hEpoch : s.run.workerEpoch ≤ s'.run.workerEpoch)
    (hFresh : s.event event.id = none) (hWrites : Writes s s' event) : Grows s s' [event] where
  events := hEvents
  admission := hSame
  epoch := hEpoch
  fresh := fun e hMem => by rw [mem_singleton.mp hMem]; exact hFresh
  nodup := nodup_singleton _
  writes := fun e hMem => by rw [mem_singleton.mp hMem]; exact hWrites

variable {id : EventId} {new : List Event} {payload : Payload}

theorem says_append (hSays : s.Says id payload) (hEvents : s'.events = s.events ++ new) :
    s'.Says id payload := by
  obtain ⟨event, hMem, hEvent⟩ := hSays
  exact ⟨event, hEvents ▸ mem_append_left _ hMem, hEvent⟩

theorem move_grows (hMove : RunMove s s') : ∃ new, Grows s s' new := by
  cases hMove with
  | claimed => exact ⟨[], grows_nil rfl rfl (Nat.le_succ _)⟩
  | ended _ _ _ hPlain hFresh hNodup =>
    exact ⟨_, rfl, rfl, Nat.le_refl _, hFresh, hNodup, fun e hMem => .plain (hPlain e hMem)⟩
  | waits _ _ _ hPlain hFresh | noted _ hPlain hFresh =>
    exact ⟨_, grows_one rfl rfl (Nat.le_refl _) hFresh (.plain hPlain)⟩
  | prepared _ hFresh => exact ⟨_, grows_one rfl rfl (Nat.le_refl _) hFresh .prepares⟩
  | @reserved preparation facts _ event _ hPrepared hFacts hConsumes hFresh hSend =>
    have hUnder : event.SendUnder s.run.admission.runId facts := by
      rw [hFacts]
      rcases hSend with ⟨sequence, stepId, hId, hPayload⟩ | ⟨hId, hPayload⟩
      · exact .inl ⟨sequence, stepId, hId, hPayload⟩
      · exact .inr ⟨_, hId, hPayload⟩
    have hEpochs : facts.epochs = s.run.epochs := by rw [hFacts]
    cases hConsumes with
    | before hSays =>
      refine ⟨_, grows_one (by rw [append_nil]) rfl (Nat.le_refl _) hFresh ?_⟩
      exact .sends hEpochs (says_append hSays (append_assoc ..)) hUnder
    | @now revision hNew =>
      refine ⟨[_, event], append_assoc .., rfl, Nat.le_refl _, ?_, ?_, ?_⟩
      · intro e hMem
        rcases mem_pair.mp hMem with rfl | rfl
        · exact hNew
        · exact hFresh
      · -- a reservation and a consumption have different ids
        rcases hUnder with ⟨_, _, hId, -⟩ | ⟨_, hId, -⟩ <;> simp [hId]
      · intro e hMem
        rcases mem_pair.mp hMem with rfl | rfl
        · rw [hFacts]
          exact .consumes hPrepared
        · refine .sends hEpochs ⟨⟨.writeConsumed facts.requestId, revision, .writeConsumed facts⟩,
            ?_, rfl, rfl⟩ hUnder
          exact mem_append_left _ (mem_append_right _ (mem_singleton.mpr rfl))
  | barred facts _ hSays hEpochs hFresh =>
    exact ⟨_, grows_one rfl rfl (Nat.le_refl _) hFresh (.bars hSays hEpochs)⟩
  | stepped step _ _ hFresh hSent =>
    refine ⟨_, grows_one rfl rfl (Nat.le_refl _) hFresh (.steps fun hWrites => ?_)⟩
    obtain ⟨hSend, hBarrier⟩ := hSent hWrites
    exact ⟨hSend, hBarrier⟩
  | _ => exact ⟨[], grows_nil rfl rfl (Nat.le_refl _)⟩

/-! ## What the events of a journal rest on -/

/-- The id of an event is the one of what it says, and it rests on other events. -/
def Event.Backed (event : Event) (s : State) : Prop :=
  match event.payload with
  | .writePrepared _ => event.id = .writePrepared s.run.admission.runId
  | .writeConsumed c => event.id = .writeConsumed c.requestId ∧
      c.epochs.worker ≤ s.run.workerEpoch ∧
      ∃ preparation : WritePreparation, preparation.requestId = c.requestId ∧
        s.Says (.writePrepared s.run.admission.runId) (.writePrepared preparation)
  | .writeSend facts => event.id = .writeSend s.run.admission.runId facts.sequence ∧
      ∃ c : Consumed, c.epochs = facts.epochs ∧
        s.Says (.writeConsumed c.requestId) (.writeConsumed c)
  | .fillStopSend facts => event.id = .fillStopSend s.run.admission.runId ∧
      ∃ c : Consumed, c.epochs = facts.epochs ∧
        s.Says (.writeConsumed c.requestId) (.writeConsumed c)
  | .writeBarrier facts => event.id = .writeBarrier s.run.admission.runId facts.sequence
  | .terminal .. | .fillStopReceipt _ | .handoffSealed _ | .handoffChecked .. | .handoffClosed _
  | .runStep _ | .traversalTerminal _ => True

structure Kept (s : State) : Prop where
  unique : (s.events.map Event.id).Nodup
  backed : ∀ event ∈ s.events, event.Backed s

theorem accepted_kept (hInit : Accepted s) : Kept s := by
  obtain ⟨admission, -, -, hEvents⟩ := hInit
  exact ⟨by rw [hEvents]; exact nodup_nil, by rw [hEvents]; exact fun _ hMem => nomatch hMem⟩

theorem Kept.says_eq (hKept : Kept s) {payload' : Payload} (hSays : s.Says id payload)
    (hSays' : s.Says id payload') : payload = payload' := by
  obtain ⟨event, hMem, hId, rfl⟩ := hSays
  obtain ⟨event', hMem', hId', rfl⟩ := hSays'
  rw [inj_on_of_nodup_map hKept.unique hMem hMem' (hId.trans hId'.symm)]

/-- What an event of the journal rests on, once its payload is known. -/
theorem Kept.rests (hKept : Kept s) (hMem : event ∈ s.events) (hPayload : event.payload = payload) :
    Event.Backed { event with payload } s :=
  hPayload ▸ hKept.backed event hMem

variable {c : Consumed}

theorem Kept.consumed_eq (hKept : Kept s) {c' : Consumed}
    (hSays : s.Says (.writeConsumed c.requestId) (.writeConsumed c))
    (hSays' : s.Says (.writeConsumed c'.requestId) (.writeConsumed c')) : c = c' := by
  have hPrepared : ∀ c : Consumed, s.Says (.writeConsumed c.requestId) (.writeConsumed c) →
      ∃ p : WritePreparation, p.requestId = c.requestId ∧
        s.Says (.writePrepared s.run.admission.runId) (.writePrepared p) := by
    rintro c ⟨event, hMem, -, hPayload⟩
    exact (hKept.rests hMem hPayload).2.2
  obtain ⟨p, hRequest, hP⟩ := hPrepared c hSays
  obtain ⟨p', hRequest', hP'⟩ := hPrepared c' hSays'
  -- the run has one preparation, so both consumptions are of one request and have one id
  have hSame : p = p' := Payload.writePrepared.inj (hKept.says_eq hP hP')
  have hId : c.requestId = c'.requestId := by rw [← hRequest, ← hRequest', hSame]
  rw [← hId] at hSays'
  exact Payload.writeConsumed.inj (hKept.says_eq hSays hSays')

theorem backed_grows (hGrows : Grows s s' new) (hBacked : event.Backed s) : event.Backed s' := by
  have hSays : ∀ {id payload}, s.Says id payload → s'.Says id payload :=
    fun hSays => says_append hSays hGrows.events
  unfold Event.Backed at hBacked ⊢
  rw [hGrows.admission]
  cases hPayload : event.payload with
  | writePrepared | writeBarrier =>
    rw [hPayload] at hBacked
    exact hBacked
  | writeConsumed c =>
    rw [hPayload] at hBacked
    obtain ⟨hId, hEpoch, p, hRequest, hPrepared⟩ := hBacked
    exact ⟨hId, hEpoch.trans hGrows.epoch, p, hRequest, hSays hPrepared⟩
  | writeSend | fillStopSend =>
    rw [hPayload] at hBacked
    obtain ⟨hId, c, hEpochs, hConsumed⟩ := hBacked
    exact ⟨hId, c, hEpochs, hSays hConsumed⟩
  | terminal | fillStopReceipt | handoffSealed | handoffChecked | handoffClosed | runStep
  | traversalTerminal => exact trivial

theorem backed_new (hGrows : Grows s s' new) (hWrites : Writes s s' event) : event.Backed s' := by
  unfold Event.Backed
  rw [hGrows.admission]
  cases hWrites with
  | plain hPlain =>
    cases hPayload : event.payload with
    | writePrepared | writeConsumed | writeSend | fillStopSend | writeBarrier | runStep =>
      rw [hPayload] at hPlain
      cases hPlain
    | terminal | fillStopReceipt | handoffSealed | handoffChecked | handoffClosed
    | traversalTerminal => exact trivial
  | prepares | bars => exact rfl
  | consumes hPrepared =>
    exact ⟨rfl, hGrows.epoch, _, rfl, says_append hPrepared hGrows.events⟩
  | @sends _ c _ hConsumed hUnder =>
    rcases hUnder with ⟨_, _, hId, hPayload⟩ | ⟨_, hId, hPayload⟩ <;> rw [hPayload] <;>
      exact ⟨hId, c, rfl, hConsumed⟩
  | steps => exact trivial

theorem grows_kept (hKept : Kept s) (hGrows : Grows s s' new) : Kept s' := by
  constructor
  · rw [hGrows.events, map_append]
    refine nodup_append.mpr ⟨hKept.unique, hGrows.nodup, ?_⟩
    -- a new id is none of the old ones
    rintro id hOld id' hNew rfl
    obtain ⟨event, hMem, hId⟩ := mem_map.mp hOld
    obtain ⟨event', hMem', hId'⟩ := mem_map.mp hNew
    have hFound : s.event event'.id = some event := by
      rw [hId', ← hId]
      exact lookup_of_mem hKept.unique hMem
    rw [hGrows.fresh event' hMem'] at hFound
    cases hFound
  · intro event hMem
    rw [hGrows.events] at hMem
    rcases mem_append.mp hMem with hMem | hMem
    · exact backed_grows hGrows (hKept.backed event hMem)
    · exact backed_new hGrows (hGrows.writes event hMem)

theorem move_kept (hKept : Kept s) (hMove : RunMove s s') : Kept s' := by
  obtain ⟨new, hGrows⟩ := move_grows hMove
  exact grows_kept hKept hGrows

/-! ## Whole runs -/

def State.ConsumedBy (s : State) (c : Consumed) : Prop :=
  ∃ event ∈ s.events, event.payload = .writeConsumed c

def Event.reserves (sequence : Nat) (event : Event) : Bool :=
  match event.payload with
  | .writeSend facts => facts.sequence = sequence
  | _ => false

def Event.bars (sequence : Nat) (event : Event) : Bool :=
  match event.payload with
  | .writeBarrier facts => facts.sequence = sequence
  | _ => false

/-- The event reserves a write, lets it pass or records it as done. -/
def Event.writing (event : Event) : Bool :=
  match event.payload with
  | .writeSend _ | .fillStopSend _ | .writeBarrier _ => true
  | .runStep step => step.effect = .mayWrite
  | _ => false

def Claims (s s' : State) : Prop := s'.run.workerEpoch = s.run.workerEpoch + 1

/-- The journal has grown, and no epoch was given back. -/
structure Follows (s s' : State) : Prop where
  events : s.events <+: s'.events
  epoch : s.run.workerEpoch ≤ s'.run.workerEpoch

theorem follows_refl (s : State) : Follows s s := ⟨prefix_rfl, Nat.le_refl _⟩

variable {a b : State}

theorem follows_trans {c : State} (hab : Follows a b) (hbc : Follows b c) : Follows a c :=
  ⟨hab.events.trans hbc.events, hab.epoch.trans hbc.epoch⟩

theorem move_follows (hMove : RunMove s s') : Follows s s' := by
  obtain ⟨new, hGrows⟩ := move_grows hMove
  exact ⟨⟨new, hGrows.events.symm⟩, hGrows.epoch⟩

theorem run_kept (hSteps : Lib.Run Accepted RunStep h) : ∀ s ∈ h, Kept s :=
  hSteps.mem_inv (fun _ hs => accepted_kept hs) fun _ _ _ hKept hMove => move_kept hKept hMove

theorem run_follows (hSteps : Lib.Run Accepted RunStep (s' :: t)) : ∀ s ∈ s' :: t, Follows s s' :=
  hSteps.rel_head follows_refl follows_trans fun _ _ _ hMove => move_follows hMove

section

variable (hKept : Kept s)

include hKept

theorem Kept.countP_le_one {P : Event → Bool} (id : EventId)
    (hId : ∀ event ∈ s.events, P event → event.id = id) : s.events.countP P ≤ 1 := by
  have hCount : (s.events.map Event.id).count id ≤ 1 := nodup_iff_count_le_one.mp hKept.unique id
  rw [List.count, countP_map] at hCount
  refine (countP_mono_left fun event hMem hP => ?_).trans hCount
  simpa using hId event hMem hP

theorem Kept.reserves_once (sequence : Nat) : s.events.countP (Event.reserves sequence) ≤ 1 := by
  refine hKept.countP_le_one (.writeSend s.run.admission.runId sequence) fun event hMem hP => ?_
  unfold Event.reserves at hP
  split at hP
  · rename_i facts hPayload
    rw [(hKept.rests hMem hPayload).1, of_decide_eq_true hP]
  · cases hP

theorem Kept.bars_once (sequence : Nat) : s.events.countP (Event.bars sequence) ≤ 1 := by
  refine hKept.countP_le_one (.writeBarrier s.run.admission.runId sequence)
    fun event hMem hP => ?_
  unfold Event.bars at hP
  split at hP
  · rename_i facts hPayload
    have hSequence : facts.sequence = sequence := of_decide_eq_true hP
    exact hSequence ▸ hKept.rests hMem hPayload
  · cases hP

theorem Kept.says_consumed (hConsumed : s.ConsumedBy c) :
    s.Says (.writeConsumed c.requestId) (.writeConsumed c) ∧
      c.epochs.worker ≤ s.run.workerEpoch := by
  obtain ⟨event, hMem, hPayload⟩ := hConsumed
  obtain ⟨hId, hEpoch, -⟩ := hKept.rests hMem hPayload
  exact ⟨⟨event, hMem, hId, hPayload⟩, hEpoch⟩

theorem Kept.send_epochs {facts : Send} (hSend : s.Says id (.writeSend facts))
    (hConsumed : s.ConsumedBy c) : c.epochs = facts.epochs := by
  obtain ⟨event, hMem, -, hPayload⟩ := hSend
  obtain ⟨-, c', hEpochs, hSays⟩ := hKept.rests hMem hPayload
  rw [hKept.consumed_eq (hKept.says_consumed hConsumed).1 hSays]
  exact hEpochs

/-- What is written after the consumption is written under its epochs. -/
theorem writes_under (hKept' : Kept s') (hConsumed : s.ConsumedBy c) (hConsumed' : s'.ConsumedBy c)
    (hWrites : Writes s s' event) (hWriting : event.writing) : c.epochs = s.run.epochs := by
  cases hWrites with
  | plain hPlain =>
    unfold Event.writing at hWriting
    cases hPayload : event.payload <;> simp_all [Payload.plain]
  | prepares | consumes => cases hWriting
  | sends hEpochs hSays _ =>
    -- the consumption may be part of this very step, so it is looked for in `s'`
    rw [hKept'.consumed_eq (hKept'.says_consumed hConsumed').1 hSays]
    exact hEpochs
  | bars hSays hEpochs => rw [hKept.send_epochs hSays hConsumed, hEpochs]
  | steps hSent =>
    obtain ⟨facts, hSays, -, -, hEpochs⟩ := (hSent (of_decide_eq_true hWriting)).send
    rw [hKept.send_epochs hSays hConsumed, hEpochs]

end

theorem new_writes (hMove : RunMove s s') (hMem : event ∈ s'.events) (hNew : event ∉ s.events) :
    Writes s s' event := by
  obtain ⟨new, hGrows⟩ := move_grows hMove
  rw [hGrows.events] at hMem
  rcases mem_append.mp hMem with hMem | hMem
  · exact absurd hMem hNew
  · exact hGrows.writes event hMem

theorem State.ConsumedBy.later (hConsumed : s.ConsumedBy c) (hFollows : Follows s s') :
    s'.ConsumedBy c := by
  obtain ⟨event, hMem, hPayload⟩ := hConsumed
  exact ⟨event, hFollows.events.subset hMem, hPayload⟩

/-- What was written after a claim that followed the consumption would have been
written under an epoch that is over. -/
theorem nothing_written_after {u : List State} (hSteps : Lib.Run Accepted RunStep (s' :: s :: t))
    (hClaim : b :: a :: u <:+ s :: t) (hClaims : Claims a b)
    (hConsumed : ∃ s₀ ∈ a :: u, s₀.ConsumedBy c) (hMem : event ∈ s'.events)
    (hNew : event ∉ s.events) : ¬event.writing := by
  intro hWriting
  obtain ⟨s₀, hBefore, hConsumed⟩ := hConsumed
  have hHere : Lib.Run Accepted RunStep (s :: t) :=
    hSteps.of_suffix (suffix_cons _ _)
  have hThere : Lib.Run Accepted RunStep (a :: u) :=
    hHere.of_suffix ((suffix_cons _ _).trans hClaim)
  -- the consumption is in the journal from `a` on
  have hAtClaim : a.ConsumedBy c := hConsumed.later (run_follows hThere s₀ hBefore)
  have hPast : Follows b s := run_follows hHere b (hClaim.subset mem_cons_self)
  have hPast' : Follows a s :=
    run_follows hHere a (hClaim.subset (mem_cons_of_mem _ mem_cons_self))
  have hNow : s.ConsumedBy c := hAtClaim.later hPast'
  have hKept := run_kept hSteps
  have hMove : RunMove s s' := hSteps.last_step
  have hEpochs := writes_under (hKept s (mem_cons_of_mem _ mem_cons_self))
    (hKept s' mem_cons_self) hNow (hNow.later (move_follows hMove))
    (new_writes hMove hMem hNew) hWriting
  -- its epoch is at most the one before the claim
  have hOld := ((run_kept hThere a mem_cons_self).says_consumed hAtClaim).2
  have hWorker : c.epochs.worker = s.run.workerEpoch := congrArg Epochs.worker hEpochs
  have hLater := hPast.epoch
  rw [hClaims] at hLater
  omega

/--
**Confirmed writes happen once.** In every interleaving of the operations, with
workers that expire or die at any point and others that claim the run:

* all consumptions of the confirmation are one, under one worker epoch and lease
  epoch, and every reservation carries these;
* the journal only grows, each position is reserved in it at most once and passes
  the barrier at most once;
* where a writing step is recorded, its own reservation and barrier were in the
  journal under the epochs that the run had;
* after a claim that follows the consumption, no write is reserved, passes the
  barrier or is recorded.
-/
theorem confirmed_writes_once {ps : Procs State RunError} (hRun : StoreRun env h ps) :
    (∀ s ∈ h, ∀ s' ∈ h, ∀ c c', s.ConsumedBy c → s'.ConsumedBy c' → c = c') ∧
    (∀ s ∈ h, ∀ event ∈ s.events, ∀ facts, event.payload = .writeSend facts →
      ∃ c, s.ConsumedBy c ∧ c.epochs = facts.epochs) ∧
    (∀ s' t, s' :: t <:+ h → ∀ s ∈ t, s.events <+: s'.events) ∧
    (∀ s ∈ h, ∀ sequence, s.events.countP (Event.reserves sequence) ≤ 1 ∧
      s.events.countP (Event.bars sequence) ≤ 1) ∧
    (∀ s' s t, s' :: s :: t <:+ h → ∀ event ∈ s'.events, event ∉ s.events →
      ∀ step, event.payload = .runStep step → step.effect = .mayWrite →
        s.Sent step.sequence step.stepId s.run.epochs) ∧
    ∀ s' s t, s' :: s :: t <:+ h → ∀ b a u, b :: a :: u <:+ s :: t → Claims a b →
      ∀ c, (∃ s₀ ∈ a :: u, s₀.ConsumedBy c) →
        ∀ event ∈ s'.events, event ∉ s.events → ¬event.writing := by
  have hSteps := hRun.steps
  have hKept := run_kept hSteps
  refine ⟨?_, ?_, ?_, ?_, ?_, ?_⟩
  · intro s hs s' hs' c c' hConsumed hConsumed'
    -- both are in the journal of the last state
    cases h with
    | nil => cases hs
    | cons last past =>
      have hLast := hKept last mem_cons_self
      exact hLast.consumed_eq (hLast.says_consumed (hConsumed.later (run_follows hSteps s hs))).1
        (hLast.says_consumed (hConsumed'.later (run_follows hSteps s' hs'))).1
  · intro s hs event hMem facts hPayload
    obtain ⟨-, c, hEpochs, event', hMem', -, hPayload'⟩ := (hKept s hs).rests hMem hPayload
    exact ⟨c, ⟨event', hMem', hPayload'⟩, hEpochs⟩
  · intro s' t hSuf s hMem
    have hPart := hSteps.of_suffix hSuf
    exact (run_follows hPart s (mem_cons_of_mem _ hMem)).events
  · exact fun s hs sequence =>
      ⟨(hKept s hs).reserves_once sequence, (hKept s hs).bars_once sequence⟩
  · intro s' s t hSuf event hMem hNew step hPayload hEffect
    have hMove := (hSteps.of_suffix hSuf).last_step
    cases new_writes hMove hMem hNew with
    | steps hSent =>
      cases hPayload
      exact hSent hEffect
    | plain hPlain =>
      rw [hPayload] at hPlain
      cases hPlain
    | sends _ _ hUnder =>
      rcases hUnder with ⟨_, _, -, hOther⟩ | ⟨_, -, hOther⟩ <;> rw [hPayload] at hOther <;>
        cases hOther
    | prepares | consumes | bars => cases hPayload
  · intro s' s t hSuf b a u hClaim hClaims c hConsumed event hMem hNew
    exact nothing_written_after (hSteps.of_suffix hSuf) hClaim hClaims
      hConsumed hMem hNew

/-! ## A sample -/

namespace Sample

def step : SkillStep := ⟨['a'], .click, .mayWrite, []⟩

def rule : SiteStepRule := ⟨step, ['z'], .mayWrite, []⟩

def manifest : Manifest where
  digest := [2]
  controlledWrite := true
  executionMode := .browserAsync
  skillId := ['l']
  skillVersion := ['v']
  skillDigest := [3]
  steps := [step]
  siteId := ['i']
  siteDigest := [4]
  policyDigest := [5]
  objectType := ['o']
  siteSteps := [rule]
  primitiveRules := []
  stepPrimitives := []
  traversal := none
  exploration := none
  verifierId := ['f']
  verifierDigest := [6]

def writeEnv : RunEnv := { plainEnv with publication := some manifest, rulesDigest := fun _ => [7] }

def preparation : WritePreparation where
  requestId := ['q']
  taskId := ['k']
  runId := ['r']
  ownerDigest := []
  publicationDigest := [2]
  skillId := ['l']
  skillVersion := ['v']
  skillDigest := [3]
  siteId := ['i']
  siteDigest := [4]
  verifierId := ['f']
  verifierDigest := [6]
  bindingId := ['b']
  bindingRevision := 1
  inputRevision := 1
  parameterSetDigest := [3]
  objectType := ['o']
  businessKeyDigest := [8]
  businessKeyConfirmationRef := ['n']
  writeStepsDigest := [7]
  bindingManifestDigest := [9]
  requestedAt := 0
  expiresAt := 900000000
  actionDigest := [10]
  requestDigest := [11]

def gate : GateRow := ⟨['k'], owner, [10], [11], [9], 0, 900000000, true, some owner, some 1⟩

def fresh : State := { start with
  gates := fun id => if id = ['q'] then some gate else none
  bindings := fun digest => if digest = [9] then some [⟨['l'], ['v'], [3]⟩] else none }

def scope : ScopeBinding := ⟨owner, ['b'], 1, none, 1, some ['r'], some .verifiedSession⟩

def command : ActionCommand := ⟨[3], step, scope, []⟩

def spec : ReadSpec := ⟨scope, ['o'], [8], ['n']⟩

def receipt : DispatchReceipt := ⟨[3], ['a'], .acknowledged, some [12]⟩

def working (revision : Nat) (phase : RunPhase) (lease : Option Nat) : Run :=
  { Run.accepted admission with
    stateRevision := revision
    phase := some phase
    workerId := some ['w']
    workerEpoch := 1
    workerDeadline := some 60000000
    providerKey := lease.map fun _ => ['p']
    providerManifestDigest := lease.map fun _ => [1]
    leaseEpoch := lease }

/-- A write is prepared, reserved, let through and recorded; time passes, another
worker claims the run and tries to reserve a further send. -/
def writeCalls : List RunCall :=
  [.write (.prepares (Run.accepted admission) preparation),
    .life (.claims owner ['w'] 60 true false),
    .life (.advances (working 2 .queued none) .acquiring .notSent),
    .life (.attaches (working 3 .acquiring none) ['p'] [1] 1),
    .life (.advances (working 4 .acquiring (some 1)) .running .notSent),
    .write (.reserves (working 5 .running (some 1)) command rule spec 1),
    .write (.asserts (working 6 .running (some 1)) command 1),
    .write (.records (working 6 .running (some 1)) command rule ⟨['z'], []⟩ receipt [5] 1)]

def taken : Run := { working 8 .running (some 1) with
  effect := .acknowledged
  workerId := some ['x']
  workerEpoch := 2
  workerDeadline := some 120000000 }

def ask (c : RunCall) : Turn State RunError := .call (c.program writeEnv answers .delivered)

def writeTurns : List (Turn State RunError) :=
  writeCalls.map ask ++ [.outside fun s => { s with clock := max s.clock 60000000 },
    ask (.life (.claims owner ['x'] 60 true false)),
    ask (.write (.reserves taken command rule spec 2))]

def writeHistory : List State := Turn.inTurn writeTurns [fresh]

theorem writeHistory_run : ∃ ps, StoreRun writeEnv writeHistory ps := by
  have hFresh : Accepted fresh := ⟨admission, rfl, rfl, rfl⟩
  refine PoolRun.inTurn hFresh fun turn hTurn => ?_
  simp only [writeTurns, mem_append, mem_map, mem_cons, not_mem_nil,
    or_false] at hTurn
  rcases hTurn with ⟨c, -, rfl⟩ | rfl | rfl | rfl
  · exact fun _ => ⟨c, _, _, rfl⟩
  · exact fun s => .around (le_max_left _ _)
  · exact fun _ => ⟨_, _, _, rfl⟩
  · exact fun _ => ⟨_, _, _, rfl⟩

def consumed : Consumed := ⟨['q'], [10], ⟨1, some 1⟩⟩

/-- The states after the second claim was refused its send, after that claim, and
before it. -/
def refused : State := writeHistory.getD 0 fresh

def reclaimed : State := writeHistory.getD 1 fresh

def expired : State := writeHistory.getD 2 fresh

theorem writeHistory_eq :
    writeHistory = refused :: reclaimed :: expired :: writeHistory.drop 3 := rfl

theorem expired_consumed : expired.ConsumedBy consumed :=
  ⟨⟨.writeConsumed ['q'], 6, .writeConsumed consumed⟩, by decide +kernel, rfl⟩

end Sample

open Sample

/-- In the sample the confirmation is consumed by the first worker only, the one
position is reserved and barred once, and the second worker writes nothing. -/
theorem confirmed_writes_once_sample :
    (∀ c, refused.ConsumedBy c → c = consumed) ∧
    refused.events.countP (Event.reserves 1) = 1 ∧
    refused.events.countP (Event.bars 1) = 1 ∧
    Claims expired reclaimed ∧
    ∀ event ∈ refused.events, event ∉ reclaimed.events → ¬event.writing := by
  obtain ⟨ps, hRun⟩ := writeHistory_run
  obtain ⟨hOne, -, -, hCount, -, hLater⟩ := confirmed_writes_once hRun
  rw [writeHistory_eq] at hOne hCount hLater
  have hClaims : Claims expired reclaimed := by
    show reclaimed.run.workerEpoch = expired.run.workerEpoch + 1
    decide +kernel
  have hReserved : 0 < refused.events.countP (Event.reserves 1) := by decide +kernel
  have hBarred : 0 < refused.events.countP (Event.bars 1) := by decide +kernel
  obtain ⟨hReserves, hBars⟩ := hCount refused mem_cons_self 1
  refine ⟨fun c hConsumed => ?_, ?_, ?_, hClaims, ?_⟩
  · exact hOne _ mem_cons_self expired (by simp) c _ hConsumed
      expired_consumed
  · omega
  · omega
  · exact hLater _ _ _ suffix_rfl _ _ _ suffix_rfl hClaims consumed
      ⟨_, mem_cons_self, expired_consumed⟩

end EternalAI.Runs
