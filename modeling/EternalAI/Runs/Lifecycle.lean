import EternalAI.Runs.Steps

/-!
# Browser runs — the life of a run

Some twenty operations each write a different part of a run. In every interleaving
of them, whatever the authority answers:

* the run and its task agree, and `waiting_user` is a status exactly when it is the
  phase;
* a run has ended exactly when it has no phase, a terminal revision and a terminal
  event, and from then on only its cleanup is recorded, each time at the next
  revision;
* completed runs are the ended runs with a verified result;
* a cancelled run was acknowledged, an acknowledged one requested;
* the effect never moves back, and where it is unknown a run only ends completed or
  failed with the code that says so.

`Lawful` collects what holds of every state, `Later` what relates a state to every
later one.
-/

namespace EternalAI.Runs

open Lib List
open Dispatch (Str Time)
open Leases (Bytes Owner)

variable {env : RunEnv} {s s' : State} {t h : List State}

structure Lawful (s : State) : Prop where
  agrees : s.task.status = s.run.status.task
  waits : s.run.status = .waitingUser ↔ s.run.phase = some .waitingUser
  phase : ¬s.run.status.active ↔ s.run.phase = none
  revision : ¬s.run.status.active ↔ s.run.terminalRevision.isSome
  event : ¬s.run.status.active ↔ s.run.terminalEventId.isSome
  journal : ∀ id ∈ s.run.terminalEventId, ∃ event ∈ s.events, event.id = id
  completed : s.run.status = .completed ↔ ¬s.run.status.active ∧
    s.run.verification = some .verified ∧ s.run.protectedResult.isSome ∧
    s.run.resultDigest.isSome ∧ s.run.verificationEvidenceDigest.isSome
  cancelled : s.run.status = .cancelled → s.run.cancelAcknowledged
  acknowledged : s.run.cancelAcknowledged → s.run.cancelRequested
  unknown : s.run.effect = .unknown → ¬s.run.status.active →
    s.run.status = .completed ∧ s.run.verification = some .verified ∨
    s.run.status = .failed ∧ s.run.errorCode = some effectUnknownCode

def RunEffect.rank : RunEffect → Nat
  | .notSent => 0
  | .acknowledged => 1
  | .unknown => 2

def Run.cleanedUp (run : Run) (cleanup : RunCleanup) (revision : Nat) : Run :=
  { run with cleanup := cleanup, stateRevision := revision }

structure Later (s s' : State) : Prop where
  effect : s.run.effect.rank ≤ s'.run.effect.rank
  ended : ¬s.run.status.active → s'.task = s.task ∧
    s'.run = s.run.cleanedUp s'.run.cleanup s'.run.stateRevision

/-! ## Active runs -/

/-- `Lawful`, of an active run. -/
structure Open (s : State) : Prop where
  active : s.run.status.active
  agrees : s.task.status = s.run.status.task
  waits : s.run.status = .waitingUser ↔ s.run.phase = some .waitingUser
  phase : s.run.phase ≠ none
  revision : s.run.terminalRevision = none
  event : s.run.terminalEventId = none
  acknowledged : s.run.cancelAcknowledged → s.run.cancelRequested

theorem Lawful.isOpen (hLaw : Lawful s) (hActive : s.run.status.active) : Open s where
  active := hActive
  agrees := hLaw.agrees
  waits := hLaw.waits
  phase := fun hNone => hLaw.phase.mpr hNone hActive
  revision := by
    have hNone := (not_congr hLaw.revision).mp (not_not.mpr hActive)
    simpa using hNone
  event := by
    have hNone := (not_congr hLaw.event).mp (not_not.mpr hActive)
    simpa using hNone
  acknowledged := hLaw.acknowledged

theorem Open.lawful (hOpen : Open s) : Lawful s where
  agrees := hOpen.agrees
  waits := hOpen.waits
  phase := iff_of_false (not_not.mpr hOpen.active) hOpen.phase
  revision := iff_of_false (not_not.mpr hOpen.active) (by simp [hOpen.revision])
  event := iff_of_false (not_not.mpr hOpen.active) (by simp [hOpen.event])
  journal := fun id hId => by
    rw [hOpen.event] at hId
    cases hId
  completed := by
    refine iff_of_false (fun hStatus => ?_) fun hEnd => hEnd.1 hOpen.active
    have hActive := hOpen.active
    rw [hStatus] at hActive
    cases hActive
  cancelled := fun hStatus => by
    have hActive := hOpen.active
    rw [hStatus] at hActive
    cases hActive
  acknowledged := hOpen.acknowledged
  unknown := fun _ hEnd => absurd hOpen.active hEnd

theorem accepted_lawful (hInit : Accepted s) : Lawful s := by
  obtain ⟨clock, task, run, events, gates, bindings⟩ := s
  obtain ⟨admission, rfl, rfl, -⟩ := hInit
  exact Open.lawful ⟨rfl, rfl, by simp [Run.accepted], nofun, rfl, rfl, nofun⟩

theorem status_waits (phase : RunPhase) :
    phase.status = .waitingUser ↔ some phase = some RunPhase.waitingUser := by
  cases phase <;> simp [RunPhase.status]

theorem status_active (phase : RunPhase) : phase.status.active := by
  cases phase <;> rfl

/-- The end of a run: what `_finalize_locked` demands makes the ended run lawful. -/
theorem ends_lawful {status : RunStatus} {errorCode : Option Str}
    {verification : Option RunVerification} {code : Option DispatchFailureCode}
    {events : List Event} (hOpen : Open s) (hEnds : s.run.ends status errorCode verification)
    (hHead : events.head? = some ⟨.terminal s.run.admission.runId, s.run.stateRevision + 1,
      .terminal status errorCode (s.run.stateRevision + 1)⟩) :
    Lawful { s.next { s.run with
        status := status
        phase := none
        verification := verification
        errorCode := errorCode
        dispatchFailureCode := code
        terminalRevision := some (s.run.stateRevision + 1)
        terminalEventId := some (.terminal s.run.admission.runId) } with
        task := ⟨status.task, errorCode⟩
        events := s.events ++ events } := by
  obtain ⟨hEnd, -, hVerified, -, hCompleted, -, hCancelled, hUnknown⟩ := hEnds
  have hNotWaiting : status ≠ .waitingUser := by
    rintro rfl
    exact hEnd rfl
  refine ⟨rfl, ?_, ?_, ?_, ?_, ?_, ?_, ?_, hOpen.acknowledged, ?_⟩
  · exact iff_of_false hNotWaiting (by simp [State.next])
  · exact iff_of_true hEnd rfl
  · exact iff_of_true hEnd rfl
  · exact iff_of_true hEnd rfl
  · intro id hId
    rw [← Option.some.inj hId]
    exact ⟨_, mem_append_right _ (mem_of_mem_head? hHead), rfl⟩
  · constructor
    · intro hStatus
      obtain ⟨-, hResult, hDigest, hEvidence⟩ := hCompleted hStatus
      exact ⟨hEnd, hVerified.mp hStatus, hResult, hDigest, hEvidence⟩
    · exact fun hAll => hVerified.mpr hAll.2.1
  · exact fun hStatus => (hCancelled hStatus).2
  · intro hEffect _
    by_cases hStatus : status = .completed
    · exact .inl ⟨hStatus, hVerified.mp hStatus⟩
    · exact .inr (hUnknown hEffect hStatus)

/-! ## One move -/

theorem Open.working (hOpen : Open s)
    (hPhase : s.run.phase = some .running ∨ s.run.phase = some .verifying) :
    s.run.status ≠ .waitingUser := by
  intro hStatus
  have hWaits := hOpen.waits.mp hStatus
  rcases hPhase with hPhase | hPhase <;> rw [hPhase] at hWaits <;> cases hWaits

theorem move_lawful (hLaw : Lawful s) (hMove : RunMove s s') : Lawful s' := by
  cases hMove with
  | idle => exact hLaw
  | around | cleaned => exact { hLaw with }
  -- these write nothing that the law of an active run is about
  | claimed hActive | renewed hActive | leased hActive | bumped hActive | noted hActive
  | prepared hActive | reserved hActive | captured _ _ _ hActive | barred _ hActive
  | stepped _ hActive => exact Open.lawful { hLaw.isOpen hActive with }
  | cancelRequested hActive =>
    exact Open.lawful { hLaw.isOpen hActive with acknowledged := fun _ => rfl }
  | cancelAcknowledged hActive hRequested =>
    exact Open.lawful { hLaw.isOpen hActive with acknowledged := fun _ => hRequested }
  | @advanced _ phase _ task hActive _ hTask =>
    have hOpen := hLaw.isOpen hActive
    -- The task moves along with the phase, unless it has the status already.
    have hAgrees : task.status = phase.status.task := by
      rcases hTask with ⟨hStatus, hSame⟩ | hTask
      · rw [hStatus, ← hOpen.agrees, hSame]
      · exact hTask
    exact Open.lawful { hOpen with
      active := status_active phase
      agrees := hAgrees
      waits := status_waits phase
      phase := nofun }
  | verified hActive hPhase =>
    have hOpen := hLaw.isOpen hActive
    have hWaits := iff_of_false (hOpen.working hPhase) (b := some RunPhase.verifying =
      some RunPhase.waitingUser) (by simp)
    exact Open.lawful { hOpen with waits := hWaits, phase := nofun }
  | ended hActive hEnds hHead => exact ends_lawful (hLaw.isOpen hActive) hEnds hHead
  | waits hActive =>
    exact Open.lawful { hLaw.isOpen hActive with
      active := rfl, agrees := rfl, waits := iff_of_true rfl rfl, phase := nofun }
  | resumes hActive =>
    exact Open.lawful { hLaw.isOpen hActive with
      active := rfl
      agrees := rfl
      waits := iff_of_false (by simp [State.next]) (by simp [State.next])
      phase := nofun }

theorem move_of_ended (hEnded : ¬s.run.status.active) (hMove : RunMove s s') :
    s'.task = s.task ∧ (s'.run = s.run ∨
      ∃ cleanup, s'.run = s.run.cleanedUp cleanup (s.run.stateRevision + 1)) := by
  cases hMove with
  | idle | around => exact ⟨rfl, .inl rfl⟩
  | @cleaned cleanup => exact ⟨rfl, .inr ⟨cleanup, rfl⟩⟩
  | claimed hActive | renewed hActive | leased hActive | bumped hActive | noted hActive
  | prepared hActive | reserved hActive | captured _ _ _ hActive | barred _ hActive
  | stepped _ hActive | cancelRequested hActive | cancelAcknowledged hActive | advanced hActive
  | verified hActive | ended hActive | waits hActive | resumes hActive =>
    exact absurd hActive hEnded

theorem move_effect (hMove : RunMove s s') : s.run.effect.rank ≤ s'.run.effect.rank := by
  cases hMove with
  | @advanced _ _ effect _ _ hAdvances _ =>
    obtain ⟨-, -, -, -, -, hSent, hUnknown⟩ := hAdvances
    show s.run.effect.rank ≤ effect.rank
    -- `advances` keeps what was sent from becoming `notSent`, and keeps `unknown`
    cases hEffect : s.run.effect with
    | notSent => exact Nat.zero_le _
    | acknowledged =>
      have hNext := hSent (by rw [hEffect]; simp)
      cases effect with
      | notSent => exact absurd rfl hNext
      | acknowledged => exact Nat.le_refl _
      | unknown => exact Nat.le_succ _
    | unknown => rw [hUnknown hEffect]
  | stepped _ _ hKnown =>
    cases hEffect : s.run.effect with
    | notSent => exact Nat.zero_le _
    | acknowledged => exact Nat.le_refl _
    | unknown => exact absurd hEffect hKnown
  | _ => exact Nat.le_refl _

theorem move_later (hMove : RunMove s s') : Later s s' := by
  refine ⟨move_effect hMove, fun hEnded => ?_⟩
  obtain ⟨hTask, hRun⟩ := move_of_ended hEnded hMove
  refine ⟨hTask, ?_⟩
  rcases hRun with hRun | ⟨cleanup, hRun⟩ <;> rw [hRun] <;> rfl

theorem later_refl (s : State) : Later s s := ⟨Nat.le_refl _, fun _ => ⟨rfl, rfl⟩⟩

theorem later_trans {a b c : State} (hab : Later a b) (hbc : Later b c) : Later a c := by
  refine ⟨hab.effect.trans hbc.effect, fun hEnded => ?_⟩
  obtain ⟨hTask, hRun⟩ := hab.ended hEnded
  have hStatus : b.run.status = a.run.status := by
    rw [hRun]
    rfl
  obtain ⟨hTask', hRun'⟩ := hbc.ended (hStatus ▸ hEnded)
  refine ⟨hTask'.trans hTask, ?_⟩
  rw [hRun', hRun]
  rfl

/-! ## Whole runs -/

/--
**The life of a run.** In every interleaving of the operations, with any answers of
the authority, every state is lawful; a later state has an effect that is as far or
further, and the same run with another cleanup and revision once the run has ended;
and the step that changes an ended run records a cleanup at the next revision.
-/
theorem run_lifecycle_kept {ps : Procs State RunError} (hRun : StoreRun env h ps) :
    (∀ s ∈ h, Lawful s) ∧
    (∀ s' t, s' :: t <:+ h → ∀ s ∈ t, Later s s') ∧
    ∀ s' s t, s' :: s :: t <:+ h → ¬s.run.status.active →
      s'.task = s.task ∧ (s'.run = s.run ∨
        ∃ cleanup, s'.run = s.run.cleanedUp cleanup (s.run.stateRevision + 1)) := by
  have hSteps := hRun.steps
  refine ⟨?_, ?_, ?_⟩
  · exact hSteps.mem_inv (fun s hs => accepted_lawful hs) fun s t s' hLaw hMove =>
      move_lawful hLaw hMove
  · intro s' t hSuf s hMem
    have hPart := hSteps.of_suffix hSuf
    exact hPart.rel_head later_refl later_trans (fun _ _ _ hMove => move_later hMove) s
      (mem_cons_of_mem _ hMem)
  · intro s' s t hSuf hEnded
    have hPart := hSteps.of_suffix hSuf
    exact move_of_ended hEnded hPart.last_step

/-! ## A sample -/

namespace Sample

/-- No publication: nothing but the life of the run is looked at. -/
def plainEnv : RunEnv where
  publication := none
  ownerDigest := fun _ => []
  ruleDigest := fun _ => []
  rulesDigest := fun _ => []
  pageChain := fun _ _ => none

def owner : Owner := ⟨['t'], ['u'], ['s']⟩

def admission : Admission where
  owner := owner
  taskId := ['k']
  runId := ['r']
  targetSystem := .oa
  bindingId := ['b']
  bindingRevision := 1
  authFingerprint := [1]
  authExpiresAt := 1000000000
  publicationDigest := [2]
  inputRevision := 1
  inputDigest := [3]
  protectedInput := ⟨['c'], ['i'], [4], [5]⟩
  authEvidenceVersion := .verifiedSession

def answers : Answers := ⟨.ok (), fun _ => .ok (), .ok .deadline⟩

def start : State := ⟨0, ⟨.running, none⟩, Run.accepted admission, [], fun _ => none, fun _ => none⟩

def held : Run := { Run.accepted admission with
  workerId := some ['w']
  workerEpoch := 1
  workerDeadline := some 60000000
  stateRevision := 1 }

def code : Str := "browser_unavailable".toList

def failedRun : Run := { held with
  stateRevision := 2
  status := .failed
  phase := none
  errorCode := some code
  terminalRevision := some 2
  terminalEventId := some (.terminal ['r']) }

def call (life : LifeCall) : Turn State RunError :=
  .call ((RunCall.life life).program plainEnv answers .delivered)

/-- A run is claimed and fails, and its resource is quarantined. -/
def turns : List (Turn State RunError) :=
  [call (.claims owner ['w'] 60 true false),
    call (.finalizes held .failed (some code) none none),
    call (.cleans failedRun .quarantined)]

def history : List State := Turn.inTurn turns [start]

theorem history_run : ∃ ps, StoreRun plainEnv history ps := by
  have hStart : Accepted start := ⟨admission, rfl, rfl, rfl⟩
  refine PoolRun.inTurn hStart fun turn hTurn => ?_
  simp only [turns, mem_cons, not_mem_nil, or_false] at hTurn
  rcases hTurn with rfl | rfl | rfl <;> exact fun _ => ⟨_, _, _, rfl⟩

def one : State := { start with run := held }

def two : State := { one with
  task := ⟨.failed, some code⟩
  run := failedRun
  events := [⟨.terminal ['r'], 2, .terminal .failed (some code) 2⟩] }

def three : State := { two with run := failedRun.cleanedUp .quarantined 3 }

theorem history_eq : history = [three, two, one, start, start, start] := rfl

end Sample

open Sample

/-- In the sample the failed run is lawful, and its cleanup is all that is recorded
later. -/
theorem run_lifecycle_kept_sample :
    Lawful two ∧ Later two three ∧
    three.run = two.run.cleanedUp .quarantined 3 := by
  obtain ⟨ps, hRun⟩ := history_run
  obtain ⟨hLaw, hLater, -⟩ := run_lifecycle_kept hRun
  rw [history_eq] at hLaw hLater
  have hTwo : two ∈ [two, one, start, start, start] :=
    mem_cons_self
  exact ⟨hLaw _ (mem_cons_of_mem _ hTwo), hLater _ _ suffix_rfl _ hTwo, rfl⟩

/-- A cleanup also raises the revision of an ended run, so it is not the only thing
that changes. -/
theorem cleanup_raises_revision :
    ¬∀ (env : RunEnv) (h : List State) (ps : Procs State RunError), StoreRun env h ps →
      ∀ s' t, s' :: t <:+ h → ∀ s ∈ t, ¬s.run.status.active →
        s'.run = { s.run with cleanup := s'.run.cleanup } := by
  intro hAll
  obtain ⟨ps, hRun⟩ := history_run
  have hSame := hAll plainEnv history ps hRun three [two, one, start, start, start] suffix_rfl two
    mem_cons_self (by decide)
  have hRevision := congrArg Run.stateRevision hSame
  cases hRevision

end EternalAI.Runs
