import EternalAI.Jobs.Execution

/-!
# Background jobs — the tasks of one execution

`BackgroundJobRunner.run` at the grain of the event loop. After the claim the
wrapper starts the handler and the heartbeat, waits for both, and then for its
final write. It may be cancelled at each wait, any number of times. Between two
waits a task runs undisturbed.

* `Tasks.next` — what a task does with its turn. If it is not its turn, nothing
  happens, so that every list of actions is an interleaving.
* `Tasks.Ordered` — what has ended before the wrapper gets where it is.
* `execution_writes_once` — the main result.
-/

namespace EternalAI.Jobs

open List

/-! ## Tasks -/

/-- `AbortReason` of the queue. -/
inductive AbortReason where
  | userRequest | shutdown
  deriving DecidableEq, Repr

/-- The heartbeat: not begun, in its timed wait, waiting for the ledger, or over. -/
inductive Heartbeat where
  | created | waiting | asked | done
  deriving DecidableEq, Repr

inductive Wrapper where
  | atHandler
  | atHeartbeat
  | atWrite (final : Final)
  | returned (result : Except JobError Unit)

/-- The tasks of an execution, as they are after the claim. -/
structure Tasks where
  handler : Option HandlerEnd := none
  heartbeat : Heartbeat := .created
  wrapper : Wrapper := .atHandler
  cause : Option Cause := none
  pendingCancel : Bool := false
  /-- How often the handler was asked to stop. Whether it does is its own affair. -/
  cancels : Nat := 0
  writes : List Final := []
  written : Option (Except JobError Bool) := none

inductive Action where
  | handlerEnds (how : HandlerEnd)
  | heartbeatWakes
  | heartbeatAnswered (answer : Except JobError (Option JobStatus))
  | wrapperWakes
  | wrapperCancelled (reason : Option AbortReason)
  | writeEnds (result : Except JobError Bool)

namespace Tasks

variable (s : Tasks)

/-- `cause.set` and `handler.cancel`. -/
def cancelHandler (cause : Cause) : Tasks :=
  { s with cause := setCause s.cause cause, cancels := s.cancels + 1 }

/-- The loop of `_heartbeat`, from its head. -/
def beatOn : Tasks := { s with heartbeat := if s.handler.isSome then .done else .waiting }

/-- `_heartbeat` begins, or its timed wait is over. -/
def heartbeatWakes : Tasks :=
  match s.heartbeat with
  | .created => s.beatOn
  | .waiting => { s with heartbeat := if s.handler.isSome then .done else .asked }
  | .asked | .done => s

/-- `_heartbeat` has its answer. One that comes late changes nothing. -/
def heartbeatAnswered (answer : Except JobError (Option JobStatus)) : Tasks :=
  if s.heartbeat ≠ .asked then s
  else match answer with
    | .error _ => s.beatOn
    | .ok status =>
      if s.handler.isSome then { s with heartbeat := .done }
      else match status with
        | none => { s.cancelHandler .lost with heartbeat := .done }
        | some .cancelRequested => { s.cancelHandler .user with heartbeat := .done }
        | some _ => s.beatOn

/-- The loops for the handler and the heartbeat, and the start of the final write. A
handler that has ended stays so: from the second loop, the first is passed at once. -/
def conclude : Tasks :=
  match s.handler with
  | none => { s with wrapper := .atHandler }
  | some how =>
    if s.heartbeat ≠ .done then { s with wrapper := .atHeartbeat }
    else match outcome how s.cause with
      | none => { s with wrapper := .returned (.error .cancelledExecution) }
      | some final => { s with wrapper := .atWrite final, writes := final :: s.writes }

def awaitWrite (final : Final) : Tasks :=
  match s.written with
  | none => s
  | some (.error e) => { s with wrapper := .returned (.error e) }
  | some (.ok _) =>
    { s with wrapper := .returned (if s.pendingCancel ∨ final.status = .cancelled then
        .error .cancelledExecution else .ok ()) }

def wrapperWakes : Tasks :=
  match s.wrapper with
  | .atHandler | .atHeartbeat => s.conclude
  | .atWrite final => s.awaitWrite final
  | .returned _ => s

/-- A `CancelledError` of the first wait: the first cause stops the handler. -/
def abort (reason : Option AbortReason) : Tasks :=
  if s.handler.isNone ∧ s.cause = none then
    s.cancelHandler (if reason = some .userRequest then .user else .lost)
  else s

def wrapperCancelled (reason : Option AbortReason) : Tasks :=
  match s.wrapper with
  | .atHandler => ({ s with pendingCancel := true }.abort reason).wrapperWakes
  | .returned _ => s
  | _ => { s with pendingCancel := true }.wrapperWakes

def handlerEnds (how : HandlerEnd) : Tasks := { s with handler := some (s.handler.getD how) }

def writeEnds (result : Except JobError Bool) : Tasks :=
  match s.writes, s.written with
  | _ :: _, none => { s with written := some result }
  | _, _ => s

def next : Action → Tasks
  | .handlerEnds how => s.handlerEnds how
  | .heartbeatWakes => s.heartbeatWakes
  | .heartbeatAnswered answer => s.heartbeatAnswered answer
  | .wrapperWakes => s.wrapperWakes
  | .wrapperCancelled reason => s.wrapperCancelled reason
  | .writeEnds result => s.writeEnds result

/-- The tasks after these actions, of which the newest stands first. -/
def after : List Action → Tasks
  | [] => {}
  | action :: past => (after past).next action

/-! ## What a turn does -/

/-- What happens beside the wrapper. The end of the handler is final, and no cause is
recorded after it; the first cause stays. -/
structure Beside (s s' : Tasks) : Prop where
  handler : s.handler.isSome → s'.handler = s.handler
  ended : s'.handler.isSome → s'.cause = s.cause
  cause : ∀ c, s.cause = some c → s'.cause = some c
  heartbeat : s.heartbeat = .done → s'.heartbeat = .done
  wrapper : s'.wrapper = s.wrapper
  writes : s'.writes = s.writes
  written : s.written.isSome → s'.written.isSome

variable {s} {s' : Tasks} {actions past : List Action} {final : Final}

theorem Beside.refl : Beside s s :=
  ⟨fun _ => rfl, fun _ => rfl, fun _ hc => hc, fun hDone => hDone, rfl, rfl, fun hEnd => hEnd⟩

theorem beside_cancelHandler (hRuns : s.handler = none) (cause : Cause) :
    Beside s (s.cancelHandler cause) where
  __ := Beside.refl
  ended hEnded := by simp [cancelHandler, hRuns] at hEnded
  cause c hc := by simp [cancelHandler, setCause, hc]

theorem Beside.beat (h : Beside s s') (hOn : s.heartbeat ≠ .done) (heartbeat : Heartbeat) :
    Beside s { s' with heartbeat := heartbeat } :=
  { h with heartbeat := fun hDone => absurd hDone hOn }

theorem beside_heartbeatWakes : Beside s s.heartbeatWakes := by
  unfold heartbeatWakes
  split
  · next hBeat => exact Beside.refl.beat (by simp [hBeat]) _
  · next hBeat => exact Beside.refl.beat (by simp [hBeat]) _
  · exact .refl
  · exact .refl

theorem beside_heartbeatAnswered (answer : Except JobError (Option JobStatus)) :
    Beside s (s.heartbeatAnswered answer) := by
  unfold heartbeatAnswered
  split
  · exact .refl
  · -- an answer that was waited for: only here does the heartbeat cancel the handler
    next hAsked =>
    have hOn : s.heartbeat ≠ .done := by simp_all
    split
    · exact Beside.refl.beat hOn _
    · split
      · exact Beside.refl.beat hOn _
      · next hRuns =>
        have hCancel := fun cause => (beside_cancelHandler (by simpa using hRuns) cause).beat
          hOn .done
        split
        · exact hCancel _
        · exact hCancel _
        · exact Beside.refl.beat hOn _

theorem beside_abort (reason : Option AbortReason) :
    Beside s ({ s with pendingCancel := true }.abort reason) := by
  unfold abort
  split
  · next hFirst => exact { beside_cancelHandler (by simpa using hFirst.1) _ with }
  · exact { Beside.refl with }

theorem beside_handlerEnds (how : HandlerEnd) : Beside s (s.handlerEnds how) where
  __ := Beside.refl
  handler hEnded := by
    obtain ⟨how', hHow⟩ := Option.isSome_iff_exists.mp hEnded
    simp [handlerEnds, hHow]
  ended _ := rfl

theorem beside_writeEnds (result : Except JobError Bool) : Beside s (s.writeEnds result) := by
  unfold writeEnds
  split
  · exact { Beside.refl with written := fun _ => rfl }
  · exact .refl

/-- **One turn.** Something happens beside the wrapper, and then it may go on. -/
theorem next_spec (s : Tasks) (action : Action) :
    ∃ s₁, Beside s s₁ ∧ (s.next action = s₁ ∨ s.next action = s₁.wrapperWakes) := by
  cases action with
  | handlerEnds how => exact ⟨_, beside_handlerEnds how, .inl rfl⟩
  | heartbeatWakes => exact ⟨_, beside_heartbeatWakes, .inl rfl⟩
  | heartbeatAnswered answer => exact ⟨_, beside_heartbeatAnswered answer, .inl rfl⟩
  | wrapperWakes => exact ⟨s, .refl, .inr rfl⟩
  | wrapperCancelled reason =>
    simp only [next, wrapperCancelled]
    split
    · exact ⟨_, beside_abort reason, .inr rfl⟩
    · exact ⟨s, .refl, .inl rfl⟩
    · -- once the handler is over, a cancellation is only remembered
      exact ⟨{ s with pendingCancel := true }, { Beside.refl with }, .inr rfl⟩
  | writeEnds result => exact ⟨_, beside_writeEnds result, .inl rfl⟩

theorem wrapperWakes_same :
    s.wrapperWakes.handler = s.handler ∧ s.wrapperWakes.cause = s.cause := by
  unfold wrapperWakes conclude awaitWrite
  (repeat' split) <;> exact ⟨rfl, rfl⟩

/-! ## Order -/

/-- Handler and heartbeat are over, and what is to be written is what the handler has
come to. -/
structure Concluded (s : Tasks) : Prop where
  heartbeat : s.heartbeat = .done
  writes : ∃ how, s.handler = some how ∧ s.writes = (outcome how s.cause).toList

/-- What has ended where the wrapper is. -/
def Ordered (s : Tasks) : Prop :=
  match s.wrapper with
  | .atHandler | .atHeartbeat => s.writes = []
  | .atWrite final => s.Concluded ∧ s.writes = [final]
  | .returned _ => s.Concluded ∧ (s.writes ≠ [] → s.written.isSome)

theorem Ordered.concluded (hOrdered : s.Ordered) (hSome : s.writes ≠ []) : s.Concluded := by
  unfold Ordered at hOrdered
  split at hOrdered
  · exact absurd hOrdered hSome
  · exact absurd hOrdered hSome
  · exact hOrdered.1
  · exact hOrdered.1

theorem Concluded.beside (h : Beside s s') (hDone : s.Concluded) : s'.Concluded := by
  obtain ⟨hBeat, how, hHow, hWrites⟩ := hDone
  have hHow' : s'.handler = some how := (h.handler (by simp [hHow])).trans hHow
  refine ⟨h.heartbeat hBeat, how, hHow', ?_⟩
  rw [h.writes, h.ended (by simp [hHow']), hWrites]

theorem Ordered.beside (h : Beside s s') (hOrdered : s.Ordered) : s'.Ordered := by
  unfold Ordered at hOrdered ⊢
  rw [h.wrapper, h.writes]
  split at hOrdered
  · exact hOrdered
  · exact hOrdered
  · exact ⟨hOrdered.1.beside h, hOrdered.2⟩
  · exact ⟨hOrdered.1.beside h, fun hSome => h.written (hOrdered.2 hSome)⟩

theorem ordered_conclude (hNone : s.writes = []) : s.conclude.Ordered := by
  unfold conclude
  split
  · exact hNone
  · next how hHow =>
    split
    · exact hNone
    · next hBeat =>
      have hBeat := not_not.mp hBeat
      -- the one place that starts a write, and nothing was written before
      split <;> rename_i hOut
      · exact ⟨⟨hBeat, how, hHow, by simp [hOut, hNone]⟩, fun hSome => absurd hNone hSome⟩
      · exact ⟨⟨hBeat, how, hHow, by simp [hOut, hNone]⟩, by simp [hNone]⟩

theorem Ordered.wakes (hOrdered : s.Ordered) : s.wrapperWakes.Ordered := by
  unfold wrapperWakes
  split <;> rename_i hAt <;> simp only [Ordered, hAt] at hOrdered
  · exact ordered_conclude hOrdered
  · exact ordered_conclude hOrdered
  · obtain ⟨⟨hBeat, hDone⟩, hWrites⟩ := hOrdered
    -- the wrapper leaves this place with the answer to its write only
    unfold awaitWrite
    split <;> rename_i hWritten
    · simpa [Ordered, hAt] using ⟨⟨hBeat, hDone⟩, hWrites⟩
    · exact ⟨⟨hBeat, hDone⟩, fun _ => by simp [hWritten]⟩
    · exact ⟨⟨hBeat, hDone⟩, fun _ => by simp [hWritten]⟩
  · simpa [Ordered, hAt] using hOrdered

theorem next_inv {I : Tasks → Prop} (hBeside : ∀ {s s'}, Beside s s' → I s → I s')
    (hWakes : ∀ {s}, I s → I s.wrapperWakes) (hI : I s) (action : Action) : I (s.next action) := by
  obtain ⟨s₁, h, hNext | hNext⟩ := next_spec s action
  · exact hNext ▸ hBeside h hI
  · exact hNext ▸ hWakes (hBeside h hI)

theorem after_ordered (actions : List Action) : (after actions).Ordered := by
  induction actions with
  | nil => exact rfl
  | cons action past ih => exact next_inv Ordered.beside Ordered.wakes ih action

theorem cause_stays {cause : Cause} (hPast : past <:+ actions)
    (hCause : (after past).cause = some cause) : (after actions).cause = some cause := by
  induction actions with
  | nil => rwa [suffix_nil.mp hPast] at hCause
  | cons action rest ih =>
    rcases suffix_cons_iff.mp hPast with rfl | hPast
    · exact hCause
    · refine next_inv (fun h hc => h.cause _ hc) ?_ (ih hPast) action
      exact fun hc => wrapperWakes_same.2.trans hc

theorem cause_recorded (hEnded : (after actions).handler.isSome) :
    ∃ past, past <:+ actions ∧ (after past).handler = none ∧
      (after past).cause = (after actions).cause := by
  induction actions with
  | nil => cases hEnded
  | cons action rest ih =>
    -- no turn that ends the handler, or finds it ended, records a cause
    have hSame : (after (action :: rest)).cause = (after rest).cause := by
      obtain ⟨s₁, h, hNext | hNext⟩ := next_spec (after rest) action
      · rw [after, hNext] at hEnded ⊢
        exact h.ended hEnded
      · rw [after, hNext, wrapperWakes_same.1] at hEnded
        rw [after, hNext, wrapperWakes_same.2]
        exact h.ended hEnded
    cases hRest : (after rest).handler with
    | none => exact ⟨rest, suffix_cons _ _, hRest, hSame.symm⟩
    | some how =>
      obtain ⟨past, hPast, hRuns, hCause⟩ := ih (by simp [hRest])
      exact ⟨past, hPast.trans (suffix_cons _ _), hRuns, hCause.trans hSame.symm⟩

/-! ## The final write -/

theorem outcome_spec {how : HandlerEnd} {cause : Option Cause}
    (hOut : outcome how cause = some final) :
    (final.status = .succeeded ↔ ∃ code summary, how = .result code summary) ∧
      (final.status = .failed ↔ ∃ code, how = .error code) ∧
      (final.status = .cancelled → how = .cancelled ∧ cause = some .user) := by
  unfold outcome at hOut
  split at hOut
  · -- cancelled: only the user's cause is written at all
    split at hOut <;> cases hOut
    simpa
  · cases hOut
    simp
  · cases hOut
    simp

structure Closes (actions : List Action) (s : Tasks) : Prop where
  once : s.writes.length ≤ 1
  started : s.writes ≠ [] → s.Concluded
  status : ∀ final ∈ s.writes,
    (final.status = .succeeded ↔ ∃ code summary, s.handler = some (.result code summary)) ∧
    (final.status = .failed ↔ ∃ code, s.handler = some (.error code)) ∧
    (final.status = .cancelled → s.handler = some .cancelled ∧
      ∃ past, past <:+ actions ∧ (after past).handler = none ∧ (after past).cause = some .user)
  first : ∀ past, past <:+ actions → ∀ cause, (after past).cause = some cause → s.cause = some cause
  otherwise : s.handler = some .cancelled → s.cause ≠ some .user → s.writes = []
  returned : ∀ result, s.wrapper = .returned result →
    s.Concluded ∧ (s.writes ≠ [] → s.written.isSome)

/--
**One final write.** After any actions of the handler, the heartbeat, the wrapper
and whoever cancels it, at most one final write was started, and only when handler
and heartbeat had ended: as succeeded or failed exactly if the handler returned or
raised, as cancelled only if it ended cancelled and the first cause, recorded while
it ran, was the user's. Nothing is written if it ended cancelled otherwise, and the
wrapper returns when all this is over.
-/
theorem execution_writes_once (actions : List Action) : Closes actions (after actions) := by
  have hOrdered := after_ordered actions
  have hFinal : ∀ final ∈ (after actions).writes, ∃ how, (after actions).handler = some how ∧
      outcome how (after actions).cause = some final := fun final hMem => by
    obtain ⟨-, how, hHow, hWrites⟩ := hOrdered.concluded (ne_nil_of_mem hMem)
    exact ⟨how, hHow, by simpa [hWrites] using hMem⟩
  refine ⟨?_, hOrdered.concluded, fun final hMem => ?_, fun past hPast cause => cause_stays hPast,
    fun hHow hUser => ?_, fun result hResult => ?_⟩
  · by_cases hSome : (after actions).writes = []
    · simp [hSome]
    · obtain ⟨-, how, -, hWrites⟩ := hOrdered.concluded hSome
      exact hWrites ▸ Option.length_toList_le
  · obtain ⟨how, hHow, hOut⟩ := hFinal final hMem
    obtain ⟨hReturned, hRaised, hCancelled⟩ := outcome_spec hOut
    refine ⟨by simpa [hHow] using hReturned, by simpa [hHow] using hRaised, fun hStatus => ?_⟩
    -- the cause that decides now was there before the handler ended
    obtain ⟨rfl, hUser⟩ := hCancelled hStatus
    have hEnded : (after actions).handler.isSome := by simp [hHow]
    obtain ⟨past, hPast, hRuns, hCause⟩ := cause_recorded hEnded
    exact ⟨hHow, past, hPast, hRuns, hCause.trans hUser⟩
  · refine eq_nil_iff_forall_not_mem.mpr fun final hMem => ?_
    obtain ⟨how, hHow', hOut⟩ := hFinal final hMem
    obtain rfl := Option.some.inj (hHow.symm.trans hHow')
    simp [outcome, hUser] at hOut
  · rw [Ordered, hResult] at hOrdered
    exact hOrdered

end Tasks

end EternalAI.Jobs
