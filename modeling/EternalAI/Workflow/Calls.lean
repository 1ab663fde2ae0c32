import EternalAI.Workflow.Equivalence

/-!
# Gateway calls per confirmation

What one engine call sends, in any interleaving with other calls for the task
and whatever the collaborators do. A resume stands for one approval of the
waiting step.

* `Silent.guarded` — the parts of the engine that touch neither the checkpoint
  nor the gateway, under any rely and guarantee.
* `Attempted` — the calls of one step: again only after a retryable failure,
  and not more often than the retry limit says.
* `approval_calls_at_most_two` — an approval leads to at most two calls of the
  confirmed capability, the second one only if the first one timed out.
-/

namespace EternalAI.Workflow

open Lib List

variable {V : Type} {α β : Type}

/-! ## Parts that call no gateway -/

theorem exists_mild : ∃ env : Env V, Mild env := by
  refine ⟨{ registry := fun _ => .ok none, gateway := fun _ _ _ _ => .error (.valueError "")
            recordStep := .ok (), appendEvent := .ok (), assertTaskBindings := .ok () }, ?_⟩
  constructor <;> simp

theorem silent_recordStep : Silent (recordStep : Call V Unit) :=
  .ask fun _ message hm hMild => hMild.recordStep message hm

theorem silent_appendState (event : Event) : Silent (appendState event : Call V Unit) := by
  intro w
  refine Guarded.atomic Same.refl ?_ ?_
  · intro w₁ _ u w₂ hOk
    cases hAppend : w₁.env.appendEvent with
    | error e =>
      rw [hAppend] at hOk
      cases hOk
    | ok v =>
      rw [hAppend] at hOk
      obtain rfl : { w₁ with events := event :: w₁.events } = w₂ :=
        congrArg Prod.snd (Except.ok.inj hOk)
      exact ⟨⟨rfl, rfl, rfl⟩, fun message hm => nomatch hm⟩
  · intro w₁ _ e hErr message hm hMild
    cases hAppend : w₁.env.appendEvent with
    | ok v =>
      rw [hAppend] at hErr
      cases hErr
    | error e' =>
      rw [hAppend] at hErr
      obtain rfl : e' = e := Except.error.inj hErr
      obtain rfl := Except.error.inj hm
      exact hMild.appendEvent message hAppend

theorem silent_skipStep (step : Step V) (index : Nat) : Silent (Pass.skipStep step index) :=
  .seq silent_recordStep fun _ => silent_appendState _

variable {pass : Pass V} {step : Step V} {index : Nat} {execution : ExecutionResult V}
  {tries : Nat} {progress : Progress V}

theorem silent_deny : Silent (pass.deny step index execution tries progress) :=
  .seq (silent_appendState _) fun _ => .seq (silent_appendState _) fun _ => .ret _

theorem silent_fail : Silent (pass.fail step index execution tries progress) :=
  .seq (silent_appendState _) fun _ => .seq (silent_appendState _) fun _ => .ret _

section Plain

variable {initialInput : Dict V} {stepOutputs : Dict (Dict V)} {message : String}

theorem resolveValue_ne_other {ref : InputRef} :
    resolveValue ref initialInput stepOutputs ≠ .error (.other message) := by
  unfold resolveValue
  split
  · split <;> simp
  · split
    · simp
    · split <;> simp

theorem mapArguments_ne_other {mapping : Dict InputRef} {arguments : Dict V} :
    mapArguments initialInput stepOutputs mapping arguments ≠ .error (.other message) := by
  induction mapping generalizing arguments with
  | nil => simp [mapArguments]
  | cons entry rest ih =>
    obtain ⟨name, ref⟩ := entry
    unfold mapArguments
    cases hValue : resolveValue ref initialInput stepOutputs with
    | error e =>
      intro hm
      cases hm
      exact resolveValue_ne_other hValue
    | ok value => exact ih

theorem selected_ne_other {equal : V → V → Bool} :
    step.selected equal initialInput stepOutputs ≠ .error (.other message) := by
  unfold Step.selected
  split
  · simp
  · next condition _ =>
    cases hValue : resolveValue condition.value initialInput stepOutputs with
    | error e =>
      intro hm
      cases hm
      exact resolveValue_ne_other hValue
    | ok value => simp [Except.map]

theorem output_ne_other {definition : Definition V} {finalOutput : Dict V} :
    definition.output stepOutputs finalOutput ≠ .error (.other message) := by
  unfold Definition.output
  split
  · simp
  · split <;> simp

end Plain

theorem silent_complete (pass : Pass V) (progress : Progress V) : Silent (pass.complete progress) :=
  .seq (.ofExcept fun _ => output_ne_other) fun _ => .seq (silent_appendState _) fun _ => .ret _

variable {p : Call V α} {w : World V}

/-- A silent program under a rely and a guarantee: what depends on checkpoint,
calls and collaborators only is kept, and an exception that is no `ValueError`
was raised in a state where `A` holds, as before every action. -/
theorem Silent.guarded {rely guar : World V → World V → Prop} {P A : World V → Prop} (hp : Silent p)
    (hRely : ∀ w w', rely w w' → P w → P w' ∧ A w') (hGuar : ∀ w w', Same w w' → guar w w')
    (hSame : ∀ w w', Same w w' → (P w → P w') ∧ (A w → A w')) (hw : P w) :
    Guarded rely guar (fun r w' => P w' ∧ ∀ message, r = .error (.other message) →
      A w' ∧ ¬Mild w'.env) p w := by
  -- Once an action has been taken, the present state satisfies `A`.
  have hAfter : ∀ (q : Call V α) (v : World V), P v → A v →
      Guarded (fun _ _ => True) Same
        (fun r w' => ∀ message, r = .error (.other message) → ¬Mild w'.env) q v →
      Guarded rely guar (fun r w' => P w' ∧ ∀ message, r = .error (.other message) →
        A w' ∧ ¬Mild w'.env) q v := by
    intro q
    induction q with
    | ret a => exact fun v hv _ _ => ⟨hv, nofun⟩
    | raise e => exact fun v hv hAllowed hq => ⟨hv, fun message hm => ⟨hAllowed, hq message hm⟩⟩
    | act upd next ih =>
      intro v hv _ hq v' hStep
      obtain ⟨hUnchanged, hNext⟩ := hq v' trivial
      obtain ⟨hv', hAllowed⟩ := hRely v v' hStep hv
      exact ⟨hGuar _ _ hUnchanged,
        ih v' _ ((hSame _ _ hUnchanged).1 hv') ((hSame _ _ hUnchanged).2 hAllowed) hNext⟩
  cases p with
  | ret a => exact ⟨hw, nofun⟩
  | raise e =>
    -- it raises whatever the collaborators are, so also where they are mild
    refine ⟨hw, fun message hm => ?_⟩
    obtain ⟨env, hMild⟩ := exists_mild
    exact absurd hMild (hp { w with env := env } message hm)
  | act upd next =>
    intro w' hStep
    obtain ⟨hUnchanged, hNext⟩ := hp w w' trivial
    obtain ⟨hw', hAllowed⟩ := hRely w w' hStep hw
    exact ⟨hGuar _ _ hUnchanged, hAfter _ _ ((hSame _ _ hUnchanged).1 hw')
      ((hSame _ _ hUnchanged).2 hAllowed) hNext⟩

/-! ## The calls of one engine call -/

def World.callsBy (w : World V) (caller : Nat) : List (GatewayCall V) :=
  w.calls.filter fun call => call.caller == caller

def GatewayCall.retryable (call : GatewayCall V) : Bool :=
  match call.reply with
  | .ok execution => execution.retryable
  | .error _ => false

/-- The calls of one step, newest first: every one but the newest was answered
by a retryable failure, and there are no more of them than the retries allow. -/
structure Attempted (calls : List (GatewayCall V)) : Prop where
  length : calls.length ≤ maxStepRetries + 1
  retried : ∀ call ∈ calls.tail, call.retryable = true

/-- The calls of an engine call: those of the confirmed step first, then those
of the later steps. -/
def Orderly (calls : List (GatewayCall V)) : Prop :=
  ∃ later approved, calls = later ++ approved ∧ (∀ call ∈ later, call.confirmed = false) ∧
    (∀ call ∈ approved, call.confirmed = true) ∧ Attempted approved

theorem Orderly.nil : Orderly ([] : List (GatewayCall V)) :=
  ⟨[], [], rfl, fun _ hMem => (nomatch hMem), fun _ hMem => (nomatch hMem),
    ⟨Nat.zero_le _, nofun⟩⟩

variable {call : GatewayCall V}

theorem Orderly.cons {calls : List (GatewayCall V)} (hCall : call.confirmed = false)
    (hCalls : Orderly calls) : Orderly (call :: calls) := by
  obtain ⟨later, approved, rfl, hLater, hApproved, hAttempted⟩ := hCalls
  refine ⟨call :: later, approved, rfl, fun c hMem => ?_, hApproved, hAttempted⟩
  rcases mem_cons.mp hMem with rfl | hMem
  · exact hCall
  · exact hLater c hMem

theorem Orderly.again {prior : List (GatewayCall V)} (hCall : call.confirmed = true)
    (hPrior : ∀ c ∈ prior, c.confirmed = true ∧ c.retryable = true)
    (hLength : prior.length ≤ maxStepRetries) : Orderly (call :: prior) := by
  refine ⟨[], call :: prior, rfl, fun _ hMem => (nomatch hMem), fun c hMem => ?_,
    ⟨Nat.succ_le_succ hLength, fun c hMem => (hPrior c hMem).2⟩⟩
  rcases mem_cons.mp hMem with rfl | hMem
  · exact hCall
  · exact (hPrior c hMem).1

/-- What a call of the engine relies on: nobody else sends in its name. -/
def LeavesCalls (caller : Nat) (w w' : World V) : Prop := w'.callsBy caller = w.callsBy caller

/-- What a call of the engine guarantees: it sends in its own name only, and
what it sends is orderly. -/
def OwnCalls (caller : Nat) (w w' : World V) : Prop :=
  (∀ j, j ≠ caller → LeavesCalls j w w') ∧
    (Orderly (w.callsBy caller) → Orderly (w'.callsBy caller))

variable {caller : Nat} {w' : World V}

theorem OwnCalls.of_calls_eq (hCalls : w'.calls = w.calls) : OwnCalls caller w w' := by
  have hLeaves : ∀ j, LeavesCalls j w w' := fun j => by
    rw [LeavesCalls, World.callsBy, hCalls, World.callsBy]
  refine ⟨fun j _ => hLeaves j, fun hOrderly => ?_⟩
  rw [hLeaves caller]
  exact hOrderly

/-- The program keeps a property of the calls made by `caller`, in the pool. -/
def Keeps (caller : Nat) (P : List (GatewayCall V) → Prop) (p : Call V α) : Prop :=
  ∀ w, P (w.callsBy caller) →
    Guarded (LeavesCalls caller) (OwnCalls caller) (fun _ w' => P (w'.callsBy caller)) p w

variable {k : α → Call V β} {cfg : Config V}

namespace Keeps

variable {caller : Nat} {P : List (GatewayCall V) → Prop}

theorem seq (hp : Keeps caller P p) (hk : ∀ a, Keeps caller P (k a)) : Keeps caller P (p >>= k) :=
  fun w hw => Guarded.seq (hp w hw) (fun a w' hw' => hk a w' hw') fun _ _ hw' => hw'

theorem attempt (hp : Keeps caller P p) : Keeps caller P p.attempt :=
  fun w hw => Guarded.attempt (hp w hw)

theorem silent (hp : Silent p) : Keeps caller P p := by
  intro w hw
  refine (hp.guarded (A := fun _ => True)
    ?_ ?_ ?_ hw).imp fun _ _ h => h.1
  · intro w₁ w₂ hLeaves hP
    exact ⟨hLeaves ▸ hP, trivial⟩
  · exact fun w₁ w₂ hSame => .of_calls_eq hSame.calls
  · intro w₁ w₂ hSame
    refine ⟨fun hP => ?_, fun _ => trivial⟩
    rw [World.callsBy, hSame.calls]
    exact hP

theorem ret (a : α) : Keeps caller P (.ret a : Call V α) := silent (.ret a)

theorem raise (e : Exn) : Keeps caller P (.raise e : Call V α) := fun _ hw => hw

theorem require (c : Prop) [Decidable c] (e : Exn) :
    Keeps caller P (Prog.require c e : Call V Unit) :=
  fun _ hw => Guarded.require (fun _ => hw) fun _ => hw

theorem ofExcept (x : Except Exn α) : Keeps caller P (Prog.ofExcept x : Call V α) :=
  fun _ hw => Guarded.ofExcept hw

theorem checkpoint (f : World V → World V) (hf : ∀ w, (f w).calls = w.calls) :
    Keeps caller P (.act f fun _ => .ret () : Call V Unit) := by
  intro w hw w' hLeaves
  refine ⟨.of_calls_eq (hf w'), ?_⟩
  have hSame : (f w').callsBy caller = w.callsBy caller := by
    rw [← show w'.callsBy caller = w.callsBy caller from hLeaves, World.callsBy, hf w',
      World.callsBy]
  show P ((f w').callsBy caller)
  rw [hSame]
  exact hw

theorem read (f : World V → α) : Keeps caller P (Prog.read f : Call V α) := by
  intro w hw
  refine Guarded.read (fun w => .of_calls_eq rfl) fun w' hLeaves => ?_
  exact hLeaves ▸ hw

theorem popCheckpoint : Keeps caller P (popCheckpoint : Call V Unit) := checkpoint _ fun _ => rfl

theorem wait : Keeps caller P (pass.wait step index execution tries progress) :=
  .seq (.require _ _) fun _ => .seq (.require _ _) fun _ => .seq (.silent (silent_appendState _))
    fun _ => .seq (.silent (silent_appendState _)) fun _ =>
      .seq (.checkpoint _ fun _ => rfl) fun _ => .ret _

theorem settleStep {capabilityId : String} {next : Progress V → Call V (RunResult V)}
    (hNext : ∀ q, Keeps caller P (next q)) : Keeps caller P
      (pass.settleStep cfg step index capabilityId execution tries progress next) := by
  unfold Pass.settleStep
  split
  · exact wait
  · exact .silent silent_deny
  · exact .seq (.silent (silent_appendState _)) fun _ => hNext _
  · exact .silent silent_fail

theorem resumeEnded (cfg : Config V) (expected : Option String)
    (outcome : Except Exn (RunResult V)) : Keeps caller P (resumeEnded cfg expected outcome) := by
  have hDrop : ∀ message, Keeps caller P (dropCheckpoint message : Call V (RunResult V)) :=
    fun message => .seq popCheckpoint fun _ => .seq (.silent (silent_appendState _)) fun _ =>
      .raise _
  unfold Workflow.resumeEnded
  split
  · split
    · exact .ret _
    · exact .seq popCheckpoint fun _ => .ret _
  · split
    · exact hDrop _
    · exact .raise _
  · exact hDrop _
  · exact .raise _

theorem executeEnded (cfg : Config V) (outcome : Except Exn (RunResult V)) :
    Keeps caller P (executeEnded cfg outcome) := by
  have hReport : ∀ e, Keeps caller P
      (appendState (.workflowFailed .failed (some .internalError)) >>= fun _ =>
        .raise e : Call V (RunResult V)) :=
    fun e => .seq (.silent (silent_appendState _)) fun _ => .raise e
  unfold Workflow.executeEnded
  split
  · exact .ret _
  · split
    · exact hReport _
    · exact .raise _
  · exact hReport _
  · exact .raise _

end Keeps

/-! ## The gateway calls of a pass -/

section Passes

variable {cfg : Config V} {pass : Pass V} {index : Nat} {capabilityId : String}
  {arguments : Dict V} {w : World V} {own : List (GatewayCall V)}

theorem callsBy_cons_self (call : GatewayCall V) (w : World V) :
    { w with calls := call :: w.calls }.callsBy call.caller = call :: w.callsBy call.caller :=
  filter_cons_of_pos (beq_self_eq_true call.caller)

theorem callsBy_cons_of_ne {j : Nat} (hj : j ≠ call.caller) (w : World V) :
    { w with calls := call :: w.calls }.callsBy j = w.callsBy j :=
  filter_cons_of_neg (by simpa using hj.symm)

theorem guarded_attemptStep (hw : w.callsBy pass.caller = own)
    (hAdd : ∀ call : GatewayCall V, call.confirmed = decide (pass.confirmedStepIndex = some index) →
      Orderly (call :: own)) :
    Guarded (LeavesCalls pass.caller) (OwnCalls pass.caller)
      (fun r w' => ((∃ e, r = .error e) ∧ w'.callsBy pass.caller = own) ∨
        ∃ call, call.confirmed = decide (pass.confirmedStepIndex = some index) ∧ call.reply = r ∧
          w'.callsBy pass.caller = call :: own)
      (pass.attemptStep cfg index capabilityId arguments) w := by
  refine Guarded.seq (Keeps.silent (P := (· = own))
    (asks_checkBinding cfg capabilityId).silent w hw)
    (fun _ w₁ h₁ => ?_) fun e _ h => .inl ⟨⟨e, rfl⟩, h⟩
  refine Guarded.seq (Keeps.silent (P := (· = own)) silent_recordStep w₁ h₁)
    (fun _ w₂ h₂ => ?_) fun e _ h => .inl ⟨⟨e, rfl⟩, h⟩
  intro w' hLeaves
  have hOwn : w'.callsBy pass.caller = own := Eq.trans hLeaves h₂
  have hAfter := callsBy_cons_self (pass.gatewayCall index capabilityId arguments w') w'
  rw [show (pass.gatewayCall index capabilityId arguments w').caller = pass.caller from rfl,
    hOwn] at hAfter
  refine ⟨⟨fun j hj => callsBy_cons_of_ne hj w', fun _ => ?_⟩, Guarded.ofExcept ?_⟩
  · rw [hAfter]
    exact hAdd _ rfl
  · exact .inr ⟨_, rfl, rfl, hAfter⟩

theorem keeps_attempts (hIndex : pass.confirmedStepIndex ≠ some index) (retries attempt : Nat) :
    Keeps pass.caller Orderly
      (pass.attempts cfg index capabilityId arguments retries attempt) := by
  have hStep : Keeps pass.caller Orderly
      (pass.attemptStep cfg index capabilityId arguments) := by
    intro w hw
    refine (guarded_attemptStep rfl fun call hCall => ?_).imp fun r w' h => ?_
    · exact .cons (hCall.trans (decide_eq_false hIndex)) hw
    · rcases h with ⟨-, hSame⟩ | ⟨call, hCall, -, hMore⟩
      · rw [hSame]
        exact hw
      · rw [hMore]
        exact .cons (hCall.trans (decide_eq_false hIndex)) hw
  induction retries generalizing attempt with
  | zero => exact .seq hStep fun _ => .ret _
  | succ retries ih =>
    refine .seq hStep fun execution => ?_
    split
    · exact ih _
    · exact .ret _

variable {prior : List (GatewayCall V)}

section

variable (hIndex : pass.confirmedStepIndex = some index)
  (hPrior : ∀ call ∈ prior, call.confirmed = true ∧ call.retryable = true)
  (hLength : prior.length ≤ maxStepRetries)

include hIndex hPrior hLength

theorem orderly_again (call : GatewayCall V)
    (hCall : call.confirmed = decide (pass.confirmedStepIndex = some index)) :
    Orderly (call :: prior) :=
  .again (hCall.trans (decide_eq_true hIndex)) hPrior hLength

theorem orderly_of_attemptStep {r : Except Exn (ExecutionResult V)}
    (h : ((∃ e, r = .error e) ∧ w'.callsBy pass.caller = prior) ∨
      ∃ call, call.confirmed = decide (pass.confirmedStepIndex = some index) ∧ call.reply = r ∧
        w'.callsBy pass.caller = call :: prior) : Orderly (w'.callsBy pass.caller) := by
  rcases h with ⟨-, hSame⟩ | ⟨call, hCall, -, hMore⟩
  · -- a check before the call has raised, and nothing was sent
    rw [hSame]
    exact ⟨[], prior, rfl, fun _ hMem => (nomatch hMem), fun c hMem => (hPrior c hMem).1,
      ⟨Nat.le_succ_of_le hLength, fun c hMem => (hPrior c (mem_of_mem_tail hMem)).2⟩⟩
  · rw [hMore]
    exact orderly_again hIndex hPrior hLength call hCall

end

theorem guarded_attempts_confirmed (hIndex : pass.confirmedStepIndex = some index)
    (retries attempt : Nat) (hw : w.callsBy pass.caller = prior)
    (hPrior : ∀ call ∈ prior, call.confirmed = true ∧ call.retryable = true)
    (hLength : prior.length + retries ≤ maxStepRetries) :
    Guarded (LeavesCalls pass.caller) (OwnCalls pass.caller)
      (fun _ w' => Orderly (w'.callsBy pass.caller))
      (pass.attempts cfg index capabilityId arguments retries attempt) w := by
  -- on the retries that are left; every call so far was answered by a retryable failure
  induction retries generalizing w prior attempt with
  | zero =>
    refine Guarded.seq (guarded_attemptStep hw (orderly_again hIndex hPrior (by omega)))
      (fun execution w' h => ?_) fun e w' h => ?_
    · exact orderly_of_attemptStep hIndex hPrior (by omega) h
    · exact orderly_of_attemptStep hIndex hPrior (by omega) h
  | succ retries ih =>
    refine Guarded.seq (guarded_attemptStep hw (orderly_again hIndex hPrior (by omega)))
      (fun execution w' h => ?_) fun e w' h => orderly_of_attemptStep hIndex hPrior (by omega) h
    cases hRetry : execution.retryable with
    | false =>
      exact orderly_of_attemptStep hIndex hPrior (by omega) h
    | true =>
      rcases h with ⟨⟨e, he⟩, -⟩ | ⟨call, hCall, hReply, hMore⟩
      · exact nomatch he
      · refine ih (attempt + 1) hMore (fun c hMem => ?_) (by rw [length_cons]; omega)
        rcases mem_cons.mp hMem with rfl | hMem
        · refine ⟨hCall.trans (decide_eq_true hIndex), ?_⟩
          rw [GatewayCall.retryable, hReply]
          exact hRetry
        · exact hPrior c hMem

theorem keeps_runSteps (cfg : Config V) (pass : Pass V) (steps : List (Step V)) (index : Nat)
    (progress : Progress V) (hBefore : ∀ k, pass.confirmedStepIndex = some k → k < index) :
    Keeps pass.caller Orderly (pass.runSteps cfg steps index progress) := by
  induction steps generalizing index progress with
  | nil => exact .silent (silent_complete _ _)
  | cons step rest ih =>
    have hNot : pass.confirmedStepIndex ≠ some index :=
      fun hEq => absurd (hBefore index hEq) (Nat.lt_irrefl index)
    have hNext : ∀ q, Keeps pass.caller Orderly (pass.runSteps cfg rest (index + 1) q) :=
      fun q => ih (index + 1) q fun k hk => Nat.lt_succ_of_lt (hBefore k hk)
    refine .seq (.ofExcept _) fun selected => ?_
    split
    · exact .seq (.ofExcept _) fun _ => .seq (.ofExcept _) fun _ =>
        .seq (keeps_attempts hNot _ _) fun _ => .settleStep hNext
    · exact .seq (.silent (silent_skipStep _ _)) fun _ => hNext progress

theorem guarded_start (hp : Keeps caller (· = []) p)
    (hk : ∀ a w', w'.callsBy caller = [] → Guarded (LeavesCalls caller) (OwnCalls caller)
      (fun _ w' => Orderly (w'.callsBy caller)) (k a) w') (hw : w.callsBy caller = []) :
    Guarded (LeavesCalls caller) (OwnCalls caller) (fun _ w' => Orderly (w'.callsBy caller))
      (p >>= k) w :=
  Guarded.seq (hp w hw) hk fun _ _ h => h ▸ .nil

theorem guarded_runSteps_confirmed (cfg : Config V) (pass : Pass V) (step : Step V)
    (rest : List (Step V)) (index : Nat) (progress : Progress V)
    (hIndex : pass.confirmedStepIndex = some index) (hw : w.callsBy pass.caller = []) :
    Guarded (LeavesCalls pass.caller) (OwnCalls pass.caller)
      (fun _ w' => Orderly (w'.callsBy pass.caller))
      (pass.runSteps cfg (step :: rest) index progress) w := by
  have hNext : ∀ q, Keeps pass.caller Orderly (pass.runSteps cfg rest (index + 1) q) := by
    refine fun q => keeps_runSteps cfg pass rest (index + 1) q fun k hk => ?_
    rw [hIndex] at hk
    cases hk
    exact Nat.lt_succ_self index
  refine guarded_start (.ofExcept _) (fun selected w₁ h₁ => ?_) hw
  split
  · refine guarded_start (.ofExcept _) (fun arguments w₂ h₂ => ?_) h₁
    refine guarded_start (.ofExcept _) (fun capabilityId w₃ h₃ => ?_) h₂
    refine Guarded.seq (guarded_attempts_confirmed hIndex maxStepRetries 1 h₃
      (nofun) (Nat.le_of_eq (Nat.zero_add _))) (fun executed w₄ h₄ => ?_)
      fun _ _ h => h
    exact Keeps.settleStep hNext w₄ h₄
  · exact guarded_start (.silent (silent_skipStep step index))
      (fun _ w₂ h₂ => hNext progress w₂ (h₂ ▸ .nil)) h₁

end Passes

/-! ## Engine calls and their interleavings -/

theorem guarded_execute (cfg : Config V) (caller : Nat) (args : ExecuteArgs V)
    (hw : w.callsBy caller = []) :
    Guarded (LeavesCalls caller) (OwnCalls caller) (fun _ w' => Orderly (w'.callsBy caller))
      (execute cfg caller args) w := by
  have hKeeps : Keeps caller Orderly (execute cfg caller args) := by
    refine .seq (.ofExcept _) fun definition => .seq (.require _ _) fun _ =>
      .seq (.silent (asks_checkAdmission _ _ _).silent) fun _ =>
        .seq (.silent (silent_appendState _)) fun _ =>
        .seq (.attempt ?_) fun _ => .executeEnded _ _
    exact keeps_runSteps cfg (args.pass caller definition) _ 0 _ fun k hk => nomatch hk
  exact hKeeps w (hw ▸ .nil)

theorem guarded_resume (cfg : Config V) (caller : Nat) (confirmed : Bool) (expected : Option String)
    (hw : w.callsBy caller = []) :
    Guarded (LeavesCalls caller) (OwnCalls caller) (fun _ w' => Orderly (w'.callsBy caller))
      (resume cfg caller confirmed expected) w := by
  refine guarded_start (.require _ _) (fun _ w₁ h₁ => ?_) hw
  refine guarded_start (.read _) (fun found w₂ h₂ => ?_) h₁
  cases found with
  | none => exact Keeps.raise _ w₂ (h₂ ▸ .nil)
  | some checkpoint =>
    refine Guarded.seq (P := fun _ w' => Orderly (w'.callsBy caller)) (Guarded.attempt ?_)
      (fun outcome w' h => Keeps.resumeEnded cfg expected outcome w' h) fun _ _ h => h
    have hDigest : Keeps caller (· = []) (checkExpectedDigest cfg expected) := by
      cases expected with
      | none => exact .ret ()
      | some digest =>
        exact .seq (.seq (.read _) fun _ => .ofExcept _) fun _ => .require _ _
    refine guarded_start hDigest (fun _ w₃ h₃ => ?_) h₂
    refine guarded_start (.silent (asks_checkResumeBindings _ _).silent) (fun _ w₄ h₄ => ?_) h₃
    cases checkpoint.remaining with
    | nil => exact Keeps.raise _ w₄ (h₄ ▸ .nil)
    | cons waitingStep later =>
      refine guarded_start (.silent (asks_validateConfirmedCapability _).silent)
        (fun _ w₅ h₅ => ?_) h₄
      refine guarded_start (.silent (silent_appendState _)) (fun _ w₆ h₆ => ?_) h₅
      exact guarded_runSteps_confirmed cfg (checkpoint.pass caller) waitingStep later _ _ rfl h₆

/-- In every interleaving, every engine call sends in its own name only, and
what it sends is orderly. -/
theorem orderly_calls {h : List (World V)} {ps : Procs (World V) Exn}
    (hRun : EngineRun cfg (fun w => w.calls = []) h ps) :
    ∀ w ∈ h, ∀ caller, Orderly (w.callsBy caller) := by
  have hCalls : ∀ caller p, EngineCall cfg caller p → ∀ w, w.callsBy caller = [] →
      Guarded (LeavesCalls caller) (OwnCalls caller) (fun _ _ => True) p w := by
    intro caller p hp w hw
    cases hp with
    | execute args =>
      exact Guarded.seq (guarded_execute cfg caller args hw) (fun _ _ _ => trivial)
        fun _ _ _ => trivial
    | resume confirmed expected =>
      exact Guarded.seq (guarded_resume cfg caller confirmed expected hw) (fun _ _ _ => trivial)
        fun _ _ _ => trivial
    | discard => exact (Keeps.popCheckpoint (P := fun _ => True) w trivial).imp fun _ _ _ => trivial
  have hEnv : ∀ caller (w w' : World V), EnvStep w w' → LeavesCalls caller w w' := by
    rintro caller w w' ⟨env, rfl⟩
    rfl
  have hSteps := (PoolRun.guarded LeavesCalls OwnCalls (fun caller w => w.callsBy caller = [])
    (fun _ _ _ _ hab hbc => Eq.trans hbc hab) (fun _ _ => rfl) hEnv (fun _ _ _ => rfl)
    (fun i _ _ _ hij hOwn => hOwn.1 i hij) (fun caller w hw => by rw [World.callsBy, hw]; rfl)
    (fun _ _ _ hLeaves hw => Eq.trans hLeaves hw) hCalls hRun).1
  refine hSteps.mem_inv ?_ ?_
  · intro w hw caller
    rw [World.callsBy, hw]
    exact .nil
  · -- the collaborators change, a call dies, or a call takes a step in its own name
    rintro w t w' hOrderly (hStep | ⟨-, rfl⟩ | ⟨j, hOwn⟩) caller
    · rw [hEnv caller w w' hStep]
      exact hOrderly caller
    · exact hOrderly caller
    · by_cases hj : caller = j
      · subst hj
        exact hOwn.2 (hOrderly caller)
      · rw [hOwn.1 caller hj]
        exact hOrderly caller

theorem timeout_of_retryable (hRetry : call.retryable = true) :
    ∃ execution, call.reply = .ok execution ∧
      (execution.status = .failed ∨ execution.status = .timeout) ∧
      execution.errorCode = some .adapterTimeout := by
  unfold GatewayCall.retryable at hRetry
  split at hRetry
  · next execution hReply =>
    rw [ExecutionResult.retryable, Bool.and_eq_true, Bool.or_eq_true, beq_iff_eq, beq_iff_eq]
      at hRetry
    obtain ⟨hStatus, hCode⟩ := hRetry
    refine ⟨execution, hReply, hStatus, ?_⟩
    split at hCode
    · next code hSome => rw [hSome, mem_singleton.mp (contains_iff_mem.mp hCode)]
    · cases hCode
  · cases hRetry

/--
**Calls per approval.** In every interleaving of engine calls for a task,
whatever the gateway and the other collaborators do, a resume calls the
confirmed capability of the waiting step at most twice before anything else, the
second time only after the first one came back as `failed` or `timeout` with
`adapter_timeout`; everything it sends later is for later steps.
-/
theorem approval_calls_at_most_two {cfg : Config V} {h : List (World V)}
    {ps : Procs (World V) Exn} (hRun : EngineRun cfg (fun w => w.calls = []) h ps) :
    ∀ w ∈ h, ∀ caller, ∃ later approved, w.callsBy caller = later ++ approved ∧
      (∀ call ∈ later, call.confirmed = false) ∧ (∀ call ∈ approved, call.confirmed = true) ∧
      approved.length ≤ 2 ∧
      ∀ call ∈ approved.tail, ∃ execution, call.reply = .ok execution ∧
        (execution.status = .failed ∨ execution.status = .timeout) ∧
        execution.errorCode = some .adapterTimeout := by
  intro w hw caller
  obtain ⟨later, approved, hCalls, hLater, hApproved, hAttempted⟩ := orderly_calls hRun w hw caller
  exact ⟨later, approved, hCalls, hLater, hApproved, hAttempted.length,
    fun call hMem => timeout_of_retryable (hAttempted.retried call hMem)⟩

namespace Sample

def slowGateway (capabilityId : String) (arguments : Dict Nat) :
    Except Exn (ExecutionResult Nat) :=
  if capabilityId = "oa.submit" then
    .ok { status := .timeout, data := none, errorCode := some .adapterTimeout }
  else gateway capabilityId arguments

def slowWorld : World Nat := { world with env := { env with gateway := fun _ _ => slowGateway } }

def slowRun : List (World Nat) :=
  (resume config 1 true none >>= fun _ => .ret () : Call Nat Unit).after
    ((execute config 0 args >>= fun _ => .ret () : Call Nat Unit).after [slowWorld])

theorem slowRun_runs : ∃ ps, EngineRun config (fun w => w.calls = []) slowRun ps := by
  have hStart : EngineRun config (fun w => w.calls = []) [slowWorld] fun _ => none := .start rfl
  obtain ⟨ps, hExecuted, hFree⟩ := hStart.call 0 (fun _ _ => rfl) (.execute args)
  obtain ⟨ps', hResumed, -⟩ := hExecuted.call 1 (fun j hj => hFree j hj) (.resume true none)
  exact ⟨ps', hResumed⟩

theorem slowRun_sends_twice :
    ∃ w ∈ slowRun, ((w.callsBy 1).filter GatewayCall.confirmed).length = 2 := by
  have hTwice : slowRun.any (fun w =>
      ((w.callsBy 1).filter GatewayCall.confirmed).length == 2) = true := by decide +kernel
  obtain ⟨w, hw, hTwo⟩ := any_eq_true.mp hTwice
  exact ⟨w, hw, beq_iff_eq.mp hTwo⟩

end Sample

open Sample

/-- One approval, two calls: the first one timed out. -/
theorem approval_calls_at_most_two_sample :
    ∃ w ∈ slowRun, ((w.callsBy 1).filter GatewayCall.confirmed).length = 2 ∧
      ∃ later approved, w.callsBy 1 = later ++ approved ∧
        (∀ call ∈ later, call.confirmed = false) ∧ (∀ call ∈ approved, call.confirmed = true) ∧
        approved.length ≤ 2 ∧
        ∀ call ∈ approved.tail, ∃ execution, call.reply = .ok execution ∧
          (execution.status = .failed ∨ execution.status = .timeout) ∧
          execution.errorCode = some .adapterTimeout := by
  obtain ⟨w, hw, hTwo⟩ := slowRun_sends_twice
  obtain ⟨ps, hRun⟩ := slowRun_runs
  exact ⟨w, hw, hTwo, approval_calls_at_most_two hRun w hw 1⟩

/-- One call per approval would be too much to ask: a confirmed capability that
timed out is called again under the same approval. -/
theorem approval_calls_not_at_most_one :
    ¬∀ (cfg : Config Nat) (h : List (World Nat)) (ps : Procs (World Nat) Exn),
      EngineRun cfg (fun w => w.calls = []) h ps →
      ∀ w ∈ h, ∀ caller, ((w.callsBy caller).filter GatewayCall.confirmed).length ≤ 1 := by
  intro hOnce
  obtain ⟨w, hw, hTwo⟩ := slowRun_sends_twice
  obtain ⟨ps, hRun⟩ := slowRun_runs
  have hAtMost := hOnce config slowRun ps hRun w hw 1
  rw [hTwo] at hAtMost
  exact absurd hAtMost (by decide)

end EternalAI.Workflow
