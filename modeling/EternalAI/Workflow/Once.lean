import EternalAI.Workflow.Calls

/-!
# Running a confirmed capability to completion

The checkpoint of a waiting workflow stays in place while the confirmed step and
all later steps run; it goes when the run ends, when a later step waits, or when
a `ValueError` is handled. Every other exception leaves it where it was, and the
next resume starts again at a step whose confirmed capability has already
completed (`confirmed_capability_completed_twice`).

* `Careful` — from the moment the confirmed capability has completed until the
  checkpoint goes, the collaborators raise nothing but `ValueError`s.
* `Settled` — no step from the waiting one on has a completed confirmed call.
  This holds whenever no resume is under way.
* `confirmed_capability_completed_once` — in every run in which resumes take
  turns and every step is careful, the confirmed capability of a step completes
  at most once.
-/

namespace EternalAI.Workflow

open Lib List

variable {V : Type} {α β : Type}

/-! ## Completed confirmed calls -/

def GatewayCall.completed (call : GatewayCall V) : Bool :=
  match call.reply with
  | .ok execution => execution.status == .completed
  | .error _ => false

/-- The calls of the confirmed capability of a step that came back completed. -/
def World.completions (w : World V) (index : Nat) : List (GatewayCall V) :=
  w.calls.filter fun call => call.confirmed && call.stepIndex == index && call.completed

def Once (w : World V) : Prop := ∀ index, (w.completions index).length ≤ 1

/-- The collaborators are mild if the waiting step has already been done. -/
def Careful (w : World V) : Prop :=
  ∀ checkpoint, w.checkpoint = some checkpoint →
    w.completions checkpoint.waitingStepIndex ≠ [] → Mild w.env

/-- Nothing from the waiting step on has been done yet. -/
def Settled (w : World V) : Prop :=
  Once w ∧ ∀ checkpoint, w.checkpoint = some checkpoint →
    ∀ k, checkpoint.waitingStepIndex ≤ k → w.completions k = []

/-- A resume of `checkpoint` is under way: nothing after the waiting step has
been done. -/
structure Held (checkpoint : Checkpoint V) (w : World V) : Prop where
  waiting : w.checkpoint = some checkpoint
  once : Once w
  later : ∀ k, checkpoint.waitingStepIndex < k → w.completions k = []

/-- And the waiting step has not been done either. -/
def Untouched (checkpoint : Checkpoint V) (w : World V) : Prop :=
  Held checkpoint w ∧ w.completions checkpoint.waitingStepIndex = []

variable {w : World V}

variable {w' : World V}

theorem completions_congr (hCalls : w'.calls = w.calls) (index : Nat) :
    w'.completions index = w.completions index := by
  rw [World.completions, hCalls, World.completions]

theorem Once.congr (hCalls : w'.calls = w.calls) (hOnce : Once w) : Once w' :=
  fun index => by
    rw [completions_congr hCalls]
    exact hOnce index

variable {checkpoint : Checkpoint V}

section

variable (hCheckpoint : w'.checkpoint = w.checkpoint) (hCalls : w'.calls = w.calls)

include hCheckpoint hCalls

theorem Held.congr (hHeld : Held checkpoint w) : Held checkpoint w' where
  waiting := hCheckpoint.trans hHeld.waiting
  once := hHeld.once.congr hCalls
  later k hk := (completions_congr hCalls k).trans (hHeld.later k hk)

theorem Untouched.congr (hUntouched : Untouched checkpoint w) : Untouched checkpoint w' :=
  ⟨hUntouched.1.congr hCheckpoint hCalls, (completions_congr hCalls _).trans hUntouched.2⟩

theorem Settled.congr (hSettled : Settled w) : Settled w' := by
  refine ⟨hSettled.1.congr hCalls, fun checkpoint hWaiting k hk => ?_⟩
  rw [completions_congr hCalls]
  exact hSettled.2 checkpoint (hCheckpoint ▸ hWaiting) k hk

end

theorem Settled.untouched (hSettled : Settled w) (hWaiting : w.checkpoint = some checkpoint) :
    Untouched checkpoint w :=
  ⟨⟨hWaiting, hSettled.1, fun k hk => hSettled.2 checkpoint hWaiting k (Nat.le_of_lt hk)⟩,
    hSettled.2 checkpoint hWaiting _ (Nat.le_refl _)⟩

theorem Untouched.settled (hUntouched : Untouched checkpoint w) : Settled w := by
  refine ⟨hUntouched.1.once, fun found hFound k hk => ?_⟩
  obtain rfl := Option.some.inj (hUntouched.1.waiting.symm.trans hFound)
  rcases Nat.eq_or_lt_of_le hk with rfl | hk
  · exact hUntouched.2
  · exact hUntouched.1.later k hk

variable {call : GatewayCall V}

theorem completions_cons_of_not (hCall : call.confirmed = false ∨ call.completed = false)
    (w : World V) (index : Nat) :
    { w with calls := call :: w.calls }.completions index = w.completions index := by
  refine filter_cons_of_neg ?_
  rcases hCall with hCall | hCall <;> simp [hCall]

theorem completions_cons_of_ne {index : Nat} (hIndex : index ≠ call.stepIndex) (w : World V) :
    { w with calls := call :: w.calls }.completions index = w.completions index :=
  filter_cons_of_neg (by simp [hIndex.symm])

theorem completions_cons_le (call : GatewayCall V) (w : World V) (index : Nat) :
    ({ w with calls := call :: w.calls }.completions index).length ≤
      (w.completions index).length + 1 := by
  unfold World.completions
  rw [filter_cons]
  split <;> simp

/-! ## One resume at a time -/

/-- What a resume relies on if resumes take turns: only the collaborators
change, and an action is taken in a careful state. -/
def Alone (w w' : World V) : Prop := EnvStep w w' ∧ Careful w'

structure StaysOnce (w w' : World V) : Prop where
  env : w'.env = w.env
  once : Once w → Once w'

theorem StaysOnce.of_calls_eq (hEnv : w'.env = w.env) (hCalls : w'.calls = w.calls) :
    StaysOnce w w' :=
  ⟨hEnv, fun hOnce => hOnce.congr hCalls⟩

theorem Alone.checkpoint_eq (hAlone : Alone w w') : w'.checkpoint = w.checkpoint := by
  obtain ⟨⟨env, rfl⟩, -⟩ := hAlone
  rfl

theorem Alone.calls_eq (hAlone : Alone w w') : w'.calls = w.calls := by
  obtain ⟨⟨env, rfl⟩, -⟩ := hAlone
  rfl

theorem Careful.congr (hSame : Same w w') (hCareful : Careful w) : Careful w' := by
  intro checkpoint hWaiting hDone
  rw [completions_congr hSame.calls] at hDone
  rw [hSame.env]
  exact hCareful checkpoint (hSame.checkpoint ▸ hWaiting) hDone

/-- In a careful state with collaborators that are not mild, the waiting step
has not been done. -/
theorem Held.untouched_of_careful (hHeld : Held checkpoint w) (hCareful : Careful w)
    (hNot : ¬Mild w.env) : Untouched checkpoint w := by
  refine ⟨hHeld, ?_⟩
  by_cases hDone : w.completions checkpoint.waitingStepIndex = []
  · exact hDone
  · exact absurd (hCareful checkpoint hHeld.waiting hDone) hNot

variable {p : Call V α}

theorem Silent.alone {P : World V → Prop} (hp : Silent p)
    (hP : ∀ {w w' : World V}, w'.checkpoint = w.checkpoint → w'.calls = w.calls → P w → P w')
    (hw : P w) :
    Guarded Alone StaysOnce (fun r w' => P w' ∧ ∀ message, r = .error (.other message) →
      Careful w' ∧ ¬Mild w'.env) p w := by
  refine hp.guarded (fun w w' hAlone hw => ?_)
    (fun w w' hSame => .of_calls_eq hSame.env hSame.calls)
    (fun w w' hSame => ?_) hw
  · exact ⟨hP hAlone.checkpoint_eq hAlone.calls_eq hw, hAlone.2⟩
  · exact ⟨hP hSame.checkpoint hSame.calls, Careful.congr hSame⟩

section

variable (checkpoint : Checkpoint V)

/-- Where a part of a resume ends: the checkpoint is still the same, and an
exception that would leave it there comes only before the waiting step is done. -/
def Good (r : Except Exn α) (w : World V) : Prop :=
  Held checkpoint w ∧ ∀ message, r = .error (.other message) → Untouched checkpoint w

/-- The program may run at any time during the resume. -/
def Carries (p : Call V α) : Prop :=
  ∀ w, Held checkpoint w → Guarded Alone StaysOnce (Good checkpoint) p w

/-- The program may run before the waiting step is done, and does not do it. -/
def Prepares (p : Call V α) : Prop :=
  ∀ w, Untouched checkpoint w → Guarded Alone StaysOnce (fun _ => Untouched checkpoint) p w

end

section Rules

variable {checkpoint : Checkpoint V}

theorem Carries.silent (hp : Silent p) : Carries checkpoint p := by
  intro w hw
  refine (hp.alone Held.congr hw).imp fun r w' h => ⟨h.1, fun m hm => ?_⟩
  obtain ⟨hCareful, hNot⟩ := h.2 m hm
  exact h.1.untouched_of_careful hCareful hNot

variable {k : α → Call V β}

theorem Carries.seq (hp : Carries checkpoint p) (hk : ∀ a, Carries checkpoint (k a)) :
    Carries checkpoint (p >>= k) := by
  refine fun w hw => Guarded.seq (hp w hw) (fun a w' h => hk a w' h.1) fun e w' h => ⟨h.1, ?_⟩
  exact fun message hm => h.2 message (congrArg Except.error (Except.error.inj hm))

theorem Prepares.silent (hp : Silent p) : Prepares checkpoint p :=
  fun _ hw => (hp.alone Untouched.congr hw).imp fun _ _ h => h.1

theorem Prepares.ofExcept (x : Except Exn α) : Prepares checkpoint (Prog.ofExcept x : Call V α) :=
  fun _ hw => Guarded.ofExcept hw

theorem Prepares.require (c : Prop) [Decidable c] (e : Exn) :
    Prepares checkpoint (Prog.require c e : Call V Unit) :=
  fun _ hw => Guarded.require (fun _ => hw) fun _ => hw

theorem Prepares.read (f : World V → α) : Prepares checkpoint (Prog.read f : Call V α) :=
  fun _ hw => Guarded.read (fun _ => .of_calls_eq rfl rfl) fun _ hAlone =>
    hw.congr hAlone.checkpoint_eq hAlone.calls_eq

theorem Prepares.seq (hp : Prepares checkpoint p) (hk : ∀ a, Prepares checkpoint (k a)) :
    Prepares checkpoint (p >>= k) :=
  fun w hw => Guarded.seq (hp w hw) (fun a w' h => hk a w' h) fun _ _ h => h

end Rules

/-! ## The gateway calls of a resume -/

section Passes

variable {cfg : Config V} {checkpoint : Checkpoint V} {pass : Pass V} {index : Nat}
  {capabilityId : String} {arguments : Dict V}

variable {w : World V}

theorem Held.cons_of_not (hCall : call.confirmed = false ∨ call.completed = false)
    (hHeld : Held checkpoint w) : Held checkpoint { w with calls := call :: w.calls } where
  waiting := hHeld.waiting
  once k := by
    rw [completions_cons_of_not hCall]
    exact hHeld.once k
  later k hk := (completions_cons_of_not hCall w k).trans (hHeld.later k hk)

theorem Untouched.cons_of_not (hCall : call.confirmed = false ∨ call.completed = false)
    (hUntouched : Untouched checkpoint w) :
    Untouched checkpoint { w with calls := call :: w.calls } :=
  ⟨hUntouched.1.cons_of_not hCall, (completions_cons_of_not hCall w _).trans hUntouched.2⟩

theorem Untouched.held_cons (hIndex : call.stepIndex = checkpoint.waitingStepIndex)
    (hUntouched : Untouched checkpoint w) :
    Held checkpoint { w with calls := call :: w.calls } where
  waiting := hUntouched.1.waiting
  once k := by
    by_cases hk : k = call.stepIndex
    · -- the waiting step had not been done, and one call does it once at most
      have hLe := completions_cons_le call w k
      have hNone : w.completions k = [] := by
        rw [hk, hIndex]
        exact hUntouched.2
      rw [hNone] at hLe
      exact hLe
    · rw [completions_cons_of_ne hk]
      exact hUntouched.1.once k
  later k hk := by
    rw [completions_cons_of_ne (by rw [hIndex]; omega)]
    exact hUntouched.1.later k hk

theorem carries_executeCapability (hNot : pass.confirmedStepIndex ≠ some index) :
    Carries checkpoint (pass.executeCapability index capabilityId arguments) := by
  intro w hw w' hAlone
  have hCall : (pass.gatewayCall index capabilityId arguments w').confirmed = false :=
    decide_eq_false hNot
  have hHeld : Held checkpoint w' := hw.congr hAlone.checkpoint_eq hAlone.calls_eq
  refine ⟨⟨rfl, fun _ => (hHeld.cons_of_not (.inl hCall)).once⟩, Guarded.ofExcept ?_⟩
  refine ⟨hHeld.cons_of_not (.inl hCall), fun message hm => ?_⟩
  -- an unforeseen exception of the gateway shows collaborators that are not mild
  have hRough : ¬Mild w'.env := fun hMild => hMild.gateway _ _ _ _ message hm
  exact (hHeld.untouched_of_careful hAlone.2 hRough).cons_of_not (.inl hCall)

/-- How the calls of the waiting step end: unless one completed, the step has
not been done. -/
def Tried (checkpoint : Checkpoint V) (completed : α → Bool) (r : Except Exn α) (w : World V) :
    Prop :=
  Held checkpoint w ∧ (r.toOption.any completed = false → Untouched checkpoint w)

theorem Untouched.tried {completed : α → Bool} {r : Except Exn α}
    (hUntouched : Untouched checkpoint w) : Tried checkpoint completed r w :=
  ⟨hUntouched.1, fun _ => hUntouched⟩

def ExecutionResult.completed (execution : ExecutionResult V) : Bool :=
  execution.status == .completed

theorem guarded_executeCapability_confirmed (hIndex : index = checkpoint.waitingStepIndex)
    (hw : Untouched checkpoint w) :
    Guarded Alone StaysOnce (Tried checkpoint ExecutionResult.completed)
      (pass.executeCapability index capabilityId arguments) w := by
  intro w' hAlone
  have hUntouched : Untouched checkpoint w' := hw.congr hAlone.checkpoint_eq hAlone.calls_eq
  have hHeld : Held checkpoint { w' with
      calls := pass.gatewayCall index capabilityId arguments w' :: w'.calls } :=
    hUntouched.held_cons hIndex
  refine ⟨⟨rfl, fun _ => hHeld.once⟩, Guarded.ofExcept ⟨hHeld, fun hNot => ?_⟩⟩
  refine hUntouched.cons_of_not (.inr ?_)
  unfold GatewayCall.completed
  cases hReply : (pass.gatewayCall index capabilityId arguments w').reply with
  | error e => rfl
  | ok execution =>
    rw [hReply] at hNot
    exact hNot

theorem carries_attempts (hNot : pass.confirmedStepIndex ≠ some index) (retries attempt : Nat) :
    Carries checkpoint (pass.attempts cfg index capabilityId arguments retries attempt) := by
  have hStep : Carries checkpoint (pass.attemptStep cfg index capabilityId arguments) :=
    .seq (.silent (asks_checkBinding _ _).silent) fun _ => .seq (.silent silent_recordStep) fun _ =>
      carries_executeCapability hNot
  induction retries generalizing attempt with
  | zero => exact .seq hStep fun _ => .silent (.ret _)
  | succ retries ih =>
    refine .seq hStep fun execution => ?_
    split
    · exact ih _
    · exact .silent (.ret _)

theorem guarded_attempts_waiting (hIndex : index = checkpoint.waitingStepIndex)
    (retries attempt : Nat) (hw : Untouched checkpoint w) :
    Guarded Alone StaysOnce (Tried checkpoint fun executed => executed.1.completed)
      (pass.attempts cfg index capabilityId arguments retries attempt) w := by
  have hStep : ∀ w, Untouched checkpoint w → Guarded Alone StaysOnce
      (Tried checkpoint ExecutionResult.completed)
      (pass.attemptStep cfg index capabilityId arguments) w := by
    intro w hw
    refine Guarded.seq (Prepares.silent (asks_checkBinding _ _).silent w hw) (fun _ w₁ h₁ => ?_)
      fun _ _ h => h.tried
    refine Guarded.seq (Prepares.silent silent_recordStep w₁ h₁) (fun _ w₂ h₂ => ?_)
      fun _ _ h => h.tried
    exact guarded_executeCapability_confirmed hIndex h₂
  induction retries generalizing attempt w with
  | zero => exact Guarded.seq (hStep w hw) (fun _ _ h => h) fun _ _ h => ⟨h.1, fun _ => h.2 rfl⟩
  | succ retries ih =>
    refine Guarded.seq (hStep w hw) (fun execution w' h => ?_) fun _ _ h => ⟨h.1, fun _ => h.2 rfl⟩
    split
    · next hRetry =>
      -- What may be tried again has not completed.
      refine ih _ (h.2 ?_)
      show execution.completed = false
      unfold ExecutionResult.retryable at hRetry
      unfold ExecutionResult.completed
      cases hStatus : execution.status <;> simp_all
    · exact h

/-! ## A whole resume -/

/-- Where the pass of a resume ends: it waits again, further on, or the
checkpoint is still the same. -/
def Ends (checkpoint : Checkpoint V) (r : Except Exn (RunResult V)) (w : World V) : Prop :=
  (∃ result, r = .ok result ∧ result.status = .waitingConfirm ∧ Settled w) ∨
    (Good checkpoint r w ∧ ∀ result, r = .ok result → result.status ≠ .waitingConfirm)

variable {e : Exn}

theorem Ends.raised (h : Good checkpoint (.error e : Except Exn α) w) :
    Ends checkpoint (.error e) w :=
  .inr ⟨⟨h.1, fun message hm => h.2 message (congrArg Except.error (Except.error.inj hm))⟩,
    nofun⟩

theorem Ends.untouched (h : Untouched checkpoint w) : Ends checkpoint (.error e) w :=
  .inr ⟨⟨h.1, fun _ _ => h⟩, nofun⟩

variable {result : RunResult V}

theorem Ends.returned (hHeld : Held checkpoint w) (hStatus : result.status ≠ .waitingConfirm) :
    Ends checkpoint (.ok result) w := by
  refine .inr ⟨⟨hHeld, nofun⟩, fun r hr => ?_⟩
  rw [← Except.ok.inj hr]
  exact hStatus

/-- The pass may go on with this program. -/
def Concludes (checkpoint : Checkpoint V) (p : Call V (RunResult V)) : Prop :=
  ∀ w, Held checkpoint w → Guarded Alone StaysOnce (Ends checkpoint) p w

variable {k : α → Call V (RunResult V)}

theorem Prepares.ends (hp : Prepares checkpoint p)
    (hk : ∀ a w', Untouched checkpoint w' → Guarded Alone StaysOnce (Ends checkpoint) (k a) w')
    (hw : Untouched checkpoint w) : Guarded Alone StaysOnce (Ends checkpoint) (p >>= k) w :=
  Guarded.seq (hp w hw) hk fun _ _ h => .untouched h

theorem Concludes.seq (hp : Carries checkpoint p) (hk : ∀ a, Concludes checkpoint (k a)) :
    Concludes checkpoint (p >>= k) :=
  fun w hw => Guarded.seq (hp w hw) (fun a w' h => hk a w' h.1) fun _ _ h => .raised h

theorem Concludes.ret (hStatus : result.status ≠ .waitingConfirm) :
    Concludes checkpoint (.ret result) :=
  fun _ hw => .returned hw hStatus

variable {step : Step V} {execution : ExecutionResult V} {attempt : Nat} {progress : Progress V}

theorem concludes_wait (hConfirmed : pass.confirmedStepIndex = some checkpoint.waitingStepIndex)
    (hLater : checkpoint.waitingStepIndex < index) :
    Concludes checkpoint (pass.wait step index execution attempt progress) := by
  have hNot : pass.confirmedStepIndex ≠ some index := by
    rw [hConfirmed]
    exact fun hEq => absurd (Option.some.inj hEq) (Nat.ne_of_lt hLater)
  have hFirst : Carries checkpoint (Prog.require (pass.confirmedStepIndex ≠ some index)
      (.other "confirmed Workflow capability requested confirmation again") : Call V Unit) := by
    rw [Prog.require, if_pos hNot]
    exact .silent (.ret ())
  refine .seq hFirst fun _ => .seq (.silent (.require (by simp))) fun _ =>
    .seq (.silent (silent_appendState _)) fun _ => .seq (.silent (silent_appendState _)) fun _ => ?_
  intro w hw w' hAlone
  have hHeld : Held checkpoint w' := hw.congr hAlone.checkpoint_eq hAlone.calls_eq
  refine ⟨.of_calls_eq rfl rfl,
    .inl ⟨_, rfl, rfl, hHeld.once.congr rfl, fun found hFound k hk => ?_⟩⟩
  cases hFound
  -- the new checkpoint is further on, where nothing has been done
  exact hHeld.later k (Nat.lt_of_lt_of_le hLater hk)

theorem concludes_settleStep {next : Progress V → Call V (RunResult V)}
    (hWait : execution.status = .waitingUser →
      Concludes checkpoint (pass.wait step index execution attempt progress))
    (hNext : ∀ q, Concludes checkpoint (next q)) :
    Concludes checkpoint
      (pass.settleStep cfg step index capabilityId execution attempt progress next) := by
  unfold Pass.settleStep
  split
  · next hStatus => exact hWait hStatus
  · exact .seq (.silent (silent_appendState _)) fun _ => .seq (.silent (silent_appendState _))
      fun _ => .ret nofun
  · exact .seq (.silent (silent_appendState _)) fun _ => hNext _
  · refine .seq (.silent (silent_appendState _)) fun _ => .seq (.silent (silent_appendState _))
      fun _ => .ret ?_
    show (if execution.status == .timeout then RunStatus.timeout else .failed) ≠ _
    split <;> decide

theorem concludes_runSteps (cfg : Config V)
    (hConfirmed : pass.confirmedStepIndex = some checkpoint.waitingStepIndex)
    (steps : List (Step V)) (index : Nat) (progress : Progress V)
    (hLater : checkpoint.waitingStepIndex < index) :
    Concludes checkpoint (pass.runSteps cfg steps index progress) := by
  induction steps generalizing index progress with
  | nil =>
    exact .seq (.silent (.ofExcept fun _ => output_ne_other)) fun _ =>
      .seq (.silent (silent_appendState _)) fun _ => .ret nofun
  | cons step rest ih =>
    have hNot : pass.confirmedStepIndex ≠ some index := by
      rw [hConfirmed]
      exact fun hEq => absurd (Option.some.inj hEq) (Nat.ne_of_lt hLater)
    have hNext : ∀ q, Concludes checkpoint (pass.runSteps cfg rest (index + 1) q) :=
      fun q => ih (index + 1) q (Nat.lt_succ_of_lt hLater)
    refine .seq (.silent (.ofExcept fun _ => selected_ne_other)) fun selected => ?_
    split
    · refine .seq (.silent (.ofExcept fun _ => mapArguments_ne_other)) fun arguments => ?_
      refine .seq (.silent (.ofExcept fun message => ?_)) fun capabilityId => ?_
      · rw [Pass.capabilityFor, if_neg hNot]
        simp
      · exact .seq (carries_attempts hNot _ _) fun executed =>
          concludes_settleStep (fun _ => concludes_wait hConfirmed hLater) hNext
    · exact .seq (.silent (silent_skipStep _ _)) fun _ => hNext progress

theorem guarded_runSteps_waiting (cfg : Config V)
    (hConfirmed : pass.confirmedStepIndex = some checkpoint.waitingStepIndex) (step : Step V)
    (rest : List (Step V)) (progress : Progress V) (hw : Untouched checkpoint w) :
    Guarded Alone StaysOnce (Ends checkpoint)
      (pass.runSteps cfg (step :: rest) checkpoint.waitingStepIndex progress) w := by
  have hNext : ∀ q, Concludes checkpoint
      (pass.runSteps cfg rest (checkpoint.waitingStepIndex + 1) q) :=
    fun q => concludes_runSteps cfg hConfirmed rest _ q (Nat.lt_succ_self _)
  refine (Prepares.ofExcept _).ends (fun selected w₁ h₁ => ?_) hw
  split
  · refine (Prepares.ofExcept _).ends (fun arguments w₂ h₂ => ?_) h₁
    refine (Prepares.ofExcept _).ends (fun capabilityId w₃ h₃ => ?_) h₂
    refine Guarded.seq (guarded_attempts_waiting rfl maxStepRetries 1 h₃)
      (fun executed w₄ h₄ => ?_) fun _ _ h => .untouched (h.2 rfl)
    by_cases hAsked : executed.1.status = .waitingUser
    · -- The confirmed capability may not ask again: the run raises, undone.
      have hUndone : Untouched checkpoint w₄ := by
        refine h₄.2 ?_
        show executed.1.completed = false
        rw [ExecutionResult.completed, hAsked]
        rfl
      have hRaised : pass.wait step checkpoint.waitingStepIndex executed.1 executed.2 progress =
          .raise (.other "confirmed Workflow capability requested confirmation again") := by
        rw [Pass.wait, Prog.require, if_neg (not_not_intro hConfirmed), Prog.bind_raise]
      rw [Pass.settleStep, hAsked]
      rw [hRaised]
      exact .untouched hUndone
    · exact concludes_settleStep (fun hStatus => absurd hStatus hAsked) hNext w₄ h₄.1
  · -- the waiting step is not selected any more, and is skipped undone
    exact (Prepares.silent (silent_skipStep step _)).ends (fun _ w₂ h₂ => hNext progress w₂ h₂.1) h₁

end Passes

theorem settled_popped (hOnce : Once w) : Settled { w with checkpoint := none } :=
  ⟨hOnce.congr rfl, nofun⟩

theorem guarded_popCheckpoint (hw : Once w) :
    Guarded Alone StaysOnce (fun _ => Settled) (popCheckpoint : Call V Unit) w := by
  intro w' hAlone
  exact ⟨.of_calls_eq rfl rfl, settled_popped (hw.congr hAlone.calls_eq)⟩

theorem guarded_dropCheckpoint (hw : Once w) (message : String) :
    Guarded Alone StaysOnce (fun _ => Settled)
      (dropCheckpoint message : Call V (RunResult V)) w := by
  refine Guarded.seq (guarded_popCheckpoint hw) (fun _ w₁ h₁ => ?_) fun _ _ h => h
  refine Guarded.seq ((silent_appendState _).alone Settled.congr h₁)
    (fun _ w₂ h₂ => h₂.1) fun _ _ h => h.1

variable {cfg : Config V} {expected : Option String}

theorem guarded_resumeEnded (hNamed : cfg.humanGate = true ∨ expected.isSome = true)
    {r : Except Exn (RunResult V)} (hEnds : Ends checkpoint r w) :
    Guarded Alone StaysOnce (fun _ => Settled) (resumeEnded cfg expected r) w := by
  rcases hEnds with ⟨result, rfl, hStatus, hSettled⟩ | ⟨⟨hHeld, hOther⟩, hStatus⟩
  · rw [resumeEnded, if_pos hStatus]
    exact hSettled
  · cases r with
    | ok result =>
      rw [resumeEnded, if_neg (hStatus result rfl)]
      exact Guarded.seq (guarded_popCheckpoint hHeld.once) (fun _ _ h => h) fun _ _ h => h
    | error e =>
      cases e with
      | valueError message =>
        -- without a gate and an expected action it would leave the checkpoint in place
        have hHandled : (cfg.humanGate || expected.isSome) = true := Bool.or_eq_true_iff.mpr hNamed
        rw [resumeEnded, if_pos hHandled]
        exact guarded_dropCheckpoint hHeld.once _
      | versionBindingMismatch message => exact guarded_dropCheckpoint hHeld.once _
      | other message => exact (hOther message rfl).settled

/-- A resume that starts where nothing from the waiting step on has been done
ends in such a state. -/
theorem guarded_resume_alone (caller : Nat) (confirmed : Bool)
    (hNamed : cfg.humanGate = true ∨ expected.isSome = true) (hw : Settled w) :
    Guarded Alone StaysOnce (fun _ => Settled) (resume cfg caller confirmed expected) w := by
  refine Guarded.seq (P := fun _ => Settled) (Guarded.require (fun _ => hw) fun _ => hw)
    (fun _ w₁ h₁ => ?_) fun _ _ h => h
  refine Guarded.seq (P := fun r w' => Settled w' ∧ r = .ok w'.checkpoint)
    (Guarded.read (fun _ => .of_calls_eq rfl rfl) fun w' hAlone => ?_) (fun found w₂ h₂ => ?_)
    fun _ _ h => h.1
  · exact ⟨h₁.congr hAlone.checkpoint_eq hAlone.calls_eq, rfl⟩
  obtain ⟨hSettled, hFound⟩ := h₂
  cases hFound
  cases hWaiting : w₂.checkpoint with
  | none => exact hSettled
  | some checkpoint =>
    -- Nobody else writes the checkpoint, so what was read is what the steps start from.
    refine Guarded.seq (P := fun r w' => ∃ x, r = .ok x ∧ Ends checkpoint x w')
      (Guarded.attempt (Guarded.imp ?_ fun r _ h => ⟨r, rfl, h⟩)) ?_ ?_
    · have hDigest : Prepares checkpoint (checkExpectedDigest cfg expected) := by
        cases expected with
        | none => exact .silent (.ret ())
        | some digest => exact .seq (.seq (.read _) fun _ => .ofExcept _) fun _ => .require _ _
      refine hDigest.ends (fun _ w₃ h₃ => ?_) (hSettled.untouched hWaiting)
      refine (Prepares.silent (asks_checkResumeBindings _ _).silent).ends (fun _ w₄ h₄ => ?_) h₃
      cases checkpoint.remaining with
      | nil => exact .untouched h₄
      | cons waitingStep later =>
        refine (Prepares.silent (asks_validateConfirmedCapability _).silent).ends
          (fun _ w₅ h₅ => ?_) h₄
        refine (Prepares.silent (silent_appendState _)).ends (fun _ w₆ h₆ => ?_) h₅
        exact guarded_runSteps_waiting cfg rfl waitingStep later _ h₆
    · rintro r w' ⟨x, hx, hEnds⟩
      cases hx
      exact guarded_resumeEnded hNamed hEnds
    · rintro e w' ⟨x, hx, -⟩
      exact nomatch hx

/-! ## Runs of resumes -/

/-- A task that waits for confirmation. Calls are counted from here on. -/
def Waiting (w : World V) : Prop := w.checkpoint.isSome ∧ w.calls = []

inductive ResumeCall (cfg : Config V) (caller : Nat) : Call V Unit → Prop
  | resume (confirmed : Bool) (expected : Option String) :
      ResumeCall cfg caller (resume cfg caller confirmed expected >>= fun _ => .ret ())

abbrev ResumeRun (cfg : Config V) := PoolRun Waiting EnvStep (ResumeCall cfg) fun _ w => w

theorem settled_of_waiting (hw : Waiting w) : Settled w := by
  have hNone : ∀ index, w.completions index = [] := fun index => by
    rw [World.completions, hw.2]
    rfl
  refine ⟨fun index => ?_, fun _ _ k _ => hNone k⟩
  rw [hNone index]
  exact Nat.zero_le 1

/-- A resume whose `ValueError`s are handled: there is a human gate, or the
confirmation names the action it was given for. -/
inductive HandledResume (cfg : Config V) (caller : Nat) : Call V Unit → Prop
  | resume (confirmed : Bool) (expected : Option String)
      (hNamed : cfg.humanGate = true ∨ expected.isSome = true) :
      HandledResume cfg caller (resume cfg caller confirmed expected >>= fun _ => .ret ())

/-- Resumes that take turns, none of them cancelled, with careful steps only. -/
abbrev CarefulRun (cfg : Config V) := TurnRun Waiting EnvStep (HandledResume cfg) Careful

theorem CarefulRun.resumeRun {h : List (World V)} {n : Nat} {p : Option (Call V Unit)}
    (hRun : CarefulRun cfg h n p) : ∃ ps, ResumeRun cfg h ps := by
  have hCalls : ∀ caller q, HandledResume cfg caller q → ResumeCall cfg caller q := by
    rintro caller q ⟨confirmed, expected, -⟩
    exact .resume confirmed expected
  obtain ⟨ps, hPool, -⟩ := (hRun.mono hCalls).pool fun _ w => w
  exact ⟨ps, hPool⟩

theorem guarded_handledResume {caller : Nat} {p : Call V Unit} (hp : HandledResume cfg caller p)
    (hw : Settled w) : Guarded Alone StaysOnce (fun _ => Settled) p w := by
  obtain ⟨confirmed, expected, hNamed⟩ := hp
  exact Guarded.seq (guarded_resume_alone caller confirmed hNamed hw) (fun _ _ h => h)
    fun _ _ h => h

theorem EnvStep.refl (w : World V) : EnvStep w w := ⟨w.env, rfl⟩

theorem EnvStep.trans (a b c : World V) (hab : EnvStep a b) (hbc : EnvStep b c) : EnvStep a c := by
  obtain ⟨env, rfl⟩ := hab
  obtain ⟨env', rfl⟩ := hbc
  exact ⟨env', rfl⟩

namespace Sample

def waiting : World Nat :=
  { ((execute config 0 args).run world).2 with calls := [] }

def resumedRun : List (World Nat) :=
  (resume config 0 true none >>= fun _ => .ret () : Call Nat Unit).after [waiting]

theorem mild : Mild env := by
  constructor
  · simp [env]
  · intro request barrier capabilityId arguments message
    show gateway capabilityId arguments ≠ _
    unfold gateway
    split
    · simp
    · split <;> simp
  · simp [env]
  · simp [env]
  · simp [env]

theorem resumedRun_careful : CarefulRun config resumedRun 1 none := by
  have hWaiting : Waiting waiting := ⟨by decide +kernel, rfl⟩
  have hCall : HandledResume config 0 (resume config 0 true none >>= fun _ => .ret ()) :=
    .resume true none (.inl rfl)
  refine TurnRun.alone EnvStep.refl (fun w hMild _ _ _ => hMild)
    (fun w w' hStays hMild => hStays.env ▸ hMild) _ ((TurnRun.start hWaiting).spawn hCall)
    (guarded_handledResume hCall (settled_of_waiting hWaiting)) ?_
  exact mild

end Sample

namespace Sample

def brokenGateway (capabilityId : String) (arguments : Dict Nat) :
    Except Exn (ExecutionResult Nat) :=
  if capabilityId = "oa.notify" then .error (.other "connection reset")
  else gateway capabilityId arguments

/-- Two resumes, one after the other, that both break down at the notification. -/
def brokenRun : List (World Nat) :=
  (resume config 1 true none >>= fun _ => .ret () : Call Nat Unit).after
    ((resume config 0 true none >>= fun _ => .ret () : Call Nat Unit).after
      [{ waiting with env := { env with gateway := fun _ _ => brokenGateway } }])

theorem brokenRun_runs : ∃ ps, ResumeRun config brokenRun ps := by
  have hStart : ResumeRun config
      [{ waiting with env := { env with gateway := fun _ _ => brokenGateway } }] fun _ => none :=
    .start ⟨by decide +kernel, rfl⟩
  obtain ⟨ps, hFirst, hFree⟩ := hStart.call 0 (fun _ _ => rfl) (.resume true none)
  obtain ⟨ps', hSecond, -⟩ := hFirst.call 1 (fun j hj => hFree j hj) (.resume true none)
  exact ⟨ps', hSecond⟩

end Sample

end EternalAI.Workflow
