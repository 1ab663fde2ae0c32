import Mathlib.Tactic.Choose
import EternalAI.Workflow.Engine

/-!
# Resuming a workflow — the same run as without the waits

A run that stops at every confirmation and is resumed is compared with the run
in which the confirmed capability of a waiting step is called on the spot
(`Pass.runThrough`). The waits make no difference:
the final status, the step outputs, the workflow output and the gateway calls
with their arguments are the same.

* `Steady` — the collaborators work and the gateway answers a capability and
  its arguments always in the same way. Nothing is assumed of what it answers.
* `Asks` — the registry checks depend on the collaborators only, so what was
  checked before the first step holds again at every resume.
* `Together`, `sim_seq` — what both runs do alike, and what follows it in each.
* `sim_settleStep`, `sim_resumed`, `sim_runSteps` — the simulation: by induction
  on the steps that remain, a resume continues where the wait stopped.
* `resumed_run_eq_uninterrupted` — the two runs as a whole.

The evidence a completed run hands to the evaluator (`evaluationObservations`)
is *not* the same: a resumed run starts a new list.
-/

namespace EternalAI.Workflow

open Lib List

variable {V : Type} {α β : Type}

/-! ## The run without waits -/

def Step.confirmedCapability (step : Step V) : Except Exn String :=
  match step.confirmedCapabilityId with
  | none => .error (.valueError "waiting Workflow step must declare a confirmed capability")
  | some capabilityId => .ok capabilityId

/-- A pass that never waits: where `runSteps` would, it calls the confirmed
capability of the step with the same arguments and goes on. -/
def Pass.runThrough (cfg : Config V) (pass : Pass V) :
    List (Step V) → Nat → Progress V → Call V (RunResult V)
  | [], _, progress => pass.complete progress
  | step :: rest, index, progress => do
    let selected ← Prog.ofExcept
      (step.selected cfg.equal pass.initialInput progress.stepOutputs)
    if selected then
      let arguments ← Prog.ofExcept (step.arguments pass.initialInput progress.stepOutputs)
      let executed ← pass.attempts cfg index step.capabilityId arguments maxStepRetries 1
      if executed.1.status = .waitingUser then
        let capabilityId ← Prog.ofExcept step.confirmedCapability
        let confirmed ← pass.attempts cfg index capabilityId arguments maxStepRetries 1
        Prog.require (confirmed.1.status ≠ .waitingUser)
          (.other "confirmed Workflow capability requested confirmation again")
        pass.settleStep cfg step index capabilityId confirmed.1 confirmed.2 progress
          (runThrough cfg pass rest (index + 1))
      else
        pass.settleStep cfg step index step.capabilityId executed.1 executed.2 progress
          (runThrough cfg pass rest (index + 1))
    else
      skipStep step index
      runThrough cfg pass rest (index + 1) progress

def executeThrough (cfg : Config V) (caller : Nat) (args : ExecuteArgs V) :
    Call V (RunResult V) :=
  executeWith cfg args fun definition =>
    (args.pass caller definition).runThrough cfg definition.steps 0 (.initial [])

/-! ## The run that is resumed after every wait -/

/-- The digest a confirmation names, if it names one: that of the action the
task waits for. -/
def namedDigest (cfg : Config V) (named : Bool) (w : World V) : Option String :=
  if named then (pendingActionDigest cfg w.checkpoint).toOption else none

/-- Resume as long as the run waits, `n` times at most. -/
def resumeAll (cfg : Config V) (caller : Nat) (named : Bool) :
    Nat → Except Exn (RunResult V) × World V → Except Exn (RunResult V) × World V
  | 0, ended => ended
  | n + 1, (.ok result, w) =>
    if result.status = .waitingConfirm then
      resumeAll cfg caller named n ((resume cfg caller true (namedDigest cfg named w)).run w)
    else (.ok result, w)
  | _ + 1, (.error e, w) => (.error e, w)

/-- The gateway calls of a run: capability and arguments, newest first. -/
def World.sent (w : World V) : List (String × Dict V) :=
  w.calls.map fun call => (call.capabilityId, call.arguments)

def RunResult.summary (result : RunResult V) : RunStatus × Dict (Dict V) × Output V :=
  (result.status, result.stepOutputs, result.output)

/-- What is compared: status, step outputs and output, unless the run raised,
and the gateway calls. -/
def observed (ended : Except Exn (RunResult V) × World V) :
    Option (RunStatus × Dict (Dict V) × Output V) × List (String × Dict V) :=
  (ended.1.toOption.map RunResult.summary, ended.2.sent)

/-- Collaborators that work: nothing but the gateway and the registry raises,
the workflow is registered as it is called, and the reply of the gateway is a
function of the capability and its arguments. -/
structure Steady (args : ExecuteArgs V) (env : Env V) : Prop where
  recordStep : env.recordStep = .ok ()
  appendEvent : env.appendEvent = .ok ()
  assertTaskBindings : env.assertTaskBindings = .ok ()
  registered : env.registry args.workflowCapability.capabilityId =
    .ok (some args.workflowCapability)
  gateway : ∀ request request' barrier barrier' capabilityId arguments,
    env.gateway request barrier capabilityId arguments =
      env.gateway request' barrier' capabilityId arguments

/-! ## Programs that only ask the collaborators -/

/-- The program changes nothing, and what it returns depends on the
collaborators only. -/
def Reads (p : Call V α) : Prop :=
  ∃ f : Env V → Except Exn α, ∀ w, p.run w = (f w.env, w)

variable {w w' : World V} {p : Call V α} {k : α → Call V β}

namespace Reads

theorem ret (a : α) : Reads (.ret a : Call V α) := ⟨fun _ => .ok a, fun _ => rfl⟩

theorem raise (e : Exn) : Reads (.raise e : Call V α) := ⟨fun _ => .error e, fun _ => rfl⟩

theorem ofExcept (x : Except Exn α) : Reads (Prog.ofExcept x : Call V α) :=
  ⟨fun _ => x, fun w => Prog.run_ofExcept x w⟩

theorem require (c : Prop) [Decidable c] (e : Exn) : Reads (Prog.require c e : Call V Unit) :=
  ⟨fun _ => if c then .ok () else .error e, fun w => Prog.run_require c e w⟩

theorem ask (answer : Env V → Except Exn α) : Reads (ask answer) :=
  ⟨answer, fun w => Prog.run_ofExcept _ w⟩

theorem seq (hp : Reads p) (hk : ∀ a, Reads (k a)) : Reads (p >>= k) := by
  obtain ⟨f, hf⟩ := hp
  choose g hg using hk
  refine ⟨fun env => match f env with
    | .ok a => g a env
    | .error e => .error e, fun w => ?_⟩
  rw [Prog.run_bind, hf w]
  dsimp only
  cases f w.env with
  | ok a => exact hg a w
  | error e => rfl

theorem attempt (hp : Reads p) : Reads p.attempt := by
  obtain ⟨f, hf⟩ := hp
  refine ⟨fun env => .ok (f env), fun w => ?_⟩
  rw [Prog.run_attempt, hf w]

variable {r : Except Exn α} {s : World V}

/-- What such a program returned in one state it returns wherever the
collaborators are the same. -/
theorem transfer (hp : Reads p) (hEnv : w'.env = w.env) (hRun : p.run w = (r, s)) :
    p.run w' = (r, w') := by
  obtain ⟨f, hf⟩ := hp
  rw [hf w] at hRun
  rw [hf w', hEnv, (Prod.mk.inj hRun).1]

theorem unchanged (hp : Reads p) (hRun : p.run w = (r, s)) : s = w :=
  (Prod.mk.inj (hRun.symm.trans (hp.transfer rfl hRun))).2

end Reads

/-- Collaborators that raise nothing but `ValueError`s. -/
structure Mild (env : Env V) : Prop where
  registry : ∀ capabilityId message, env.registry capabilityId ≠ .error (.other message)
  gateway : ∀ request barrier capabilityId arguments message,
    env.gateway request barrier capabilityId arguments ≠ .error (.other message)
  recordStep : ∀ message, env.recordStep ≠ .error (.other message)
  appendEvent : ∀ message, env.appendEvent ≠ .error (.other message)
  assertTaskBindings : ∀ message, env.assertTaskBindings ≠ .error (.other message)

structure Same (w w' : World V) : Prop where
  checkpoint : w'.checkpoint = w.checkpoint
  calls : w'.calls = w.calls
  env : w'.env = w.env

theorem Same.refl (w : World V) : Same w w := ⟨rfl, rfl, rfl⟩

/-- The program touches neither the checkpoint nor the gateway, whatever happens
around it, and it raises something that is not a `ValueError` only if a
collaborator just did. -/
def Silent (p : Call V α) : Prop :=
  ∀ w, Guarded (fun _ _ => True) Same
    (fun r w' => ∀ message, r = .error (.other message) → ¬Mild w'.env) p w

variable {e : Exn} {x : Except Exn α} {c : Prop} {answer : Env V → Except Exn α}

namespace Silent

theorem ret (a : α) : Silent (.ret a : Call V α) := fun _ _ hm => nomatch hm

theorem ofExcept (hx : ∀ message, x ≠ .error (.other message)) :
    Silent (Prog.ofExcept x : Call V α) :=
  fun _ => Guarded.ofExcept fun message hm => absurd hm (hx message)

theorem raise (he : ∀ message, e ≠ .other message) : Silent (.raise e : Call V α) :=
  fun _ message hm => absurd (Except.error.inj hm) (he message)

theorem require [Decidable c] (he : ∀ message, e ≠ .other message) :
    Silent (Prog.require c e : Call V Unit) := by
  refine fun _ => Guarded.require (fun _ _ hm => nomatch hm) fun _ message hm => ?_
  exact absurd (Except.error.inj hm) (he message)

theorem ask (hAnswer : ∀ env message, answer env = .error (.other message) → ¬Mild env) :
    Silent (ask answer) := by
  intro w
  refine Guarded.seq (P := fun r w' => r = .ok (answer w'.env)) (Guarded.read Same.refl ?_) ?_ ?_
  · exact fun _ _ => rfl
  · intro reply w' hReply
    cases hReply
    exact Guarded.ofExcept fun message hm => hAnswer _ message hm
  · exact fun _ _ hErr => nomatch hErr

theorem seq (hp : Silent p) (hk : ∀ a, Silent (k a)) : Silent (p >>= k) := by
  refine fun w => Guarded.seq (hp w) (fun a w' _ => hk a w') fun e w' hErr message hm => ?_
  exact hErr message (congrArg Except.error (Except.error.inj hm))

theorem rethrow (hp : Silent p) {f : Exn → Exn}
    (hf : ∀ e message, f e = .other message → e = .other message) :
    Silent (p.attempt >>= fun r => Prog.ofExcept (r.mapError f)) := by
  intro w
  refine Guarded.seq
    (P := fun r w' => ∃ x, r = .ok x ∧ ∀ message, x = .error (.other message) → ¬Mild w'.env)
    (Guarded.attempt ((hp w).imp fun r w' hr => ⟨r, rfl, hr⟩)) ?_ ?_
  · rintro r w' ⟨x, hx, hr⟩
    cases hx
    refine Guarded.ofExcept fun message hm => ?_
    cases r with
    | ok a => exact nomatch hm
    | error e =>
      -- the new name is `other` only where the old one was
      have he : e = .other message := hf e message (Except.error.inj hm)
      exact hr message (congrArg Except.error he)
  · rintro e w' ⟨x, hx, -⟩
    exact nomatch hx

end Silent

/-- The program does nothing but ask the collaborators. -/
structure Asks (p : Call V α) : Prop where
  reads : Reads p
  silent : Silent p

namespace Asks

theorem ret (a : α) : Asks (.ret a : Call V α) := ⟨.ret a, .ret a⟩

theorem raise (he : ∀ message, e ≠ .other message) : Asks (.raise e : Call V α) :=
  ⟨.raise e, .raise he⟩

theorem ofExcept (hx : ∀ message, x ≠ .error (.other message)) :
    Asks (Prog.ofExcept x : Call V α) :=
  ⟨.ofExcept x, .ofExcept hx⟩

theorem require [Decidable c] (he : ∀ message, e ≠ .other message) :
    Asks (Prog.require c e : Call V Unit) :=
  ⟨.require c e, .require he⟩

theorem seq (hp : Asks p) (hk : ∀ a, Asks (k a)) : Asks (p >>= k) :=
  ⟨.seq hp.reads fun a => (hk a).reads, .seq hp.silent fun a => (hk a).silent⟩

end Asks

theorem asks_registryGet (capabilityId : String) :
    Asks (registryGet capabilityId : Call V (Option CapabilitySpec)) :=
  ⟨.ask _, .ask fun _ message hm hMild => hMild.registry capabilityId message hm⟩

theorem asks_assertTaskBindings : Asks (assertTaskBindings : Call V Unit) :=
  ⟨.ask _, .ask fun _ message hm hMild => hMild.assertTaskBindings message hm⟩

theorem asks_validateConfirmedCapability (step : Step V) :
    Asks (validateConfirmedCapability step) := by
  unfold validateConfirmedCapability
  split
  · exact .raise (by simp)
  · exact .seq (.require (by simp)) fun _ => .seq (asks_registryGet _) fun _ => .require (by simp)

theorem asks_validateConfirmedIfDeclared (step : Step V) :
    Asks (validateConfirmedIfDeclared step) := by
  unfold validateConfirmedIfDeclared
  split
  · exact asks_validateConfirmedCapability step
  · exact .ret ()

theorem asks_validateStepCapabilities (steps : List (Step V)) :
    Asks (validateStepCapabilities steps) := by
  induction steps with
  | nil => exact .ret ()
  | cons step rest ih =>
    exact .seq (asks_registryGet _) fun _ => .seq (.require (by simp)) fun _ =>
      .seq (asks_validateConfirmedIfDeclared step) fun _ => ih

theorem validateStepIds_ne_other (steps : List (Step V)) (seen : List String) (message : String) :
    validateStepIds steps seen ≠ .error (.other message) := by
  induction steps generalizing seen with
  | nil => simp [validateStepIds]
  | cons step rest ih =>
    unfold validateStepIds
    split
    · simp
    · split
      · simp
      · exact ih _

section

variable (cfg : Config V) (definition : Definition V)

theorem asks_validateSteps : Asks (validateSteps definition) := by
  refine .seq (.ofExcept fun message => ?_) fun _ => asks_validateStepCapabilities _
  unfold validateStructure
  split
  · simp
  · dsimp only
    split
    · simp
    · exact validateStepIds_ne_other _ _ message

theorem asks_bindCapabilities (capabilityIds : List String) :
    Asks (bindCapabilities capabilityIds : Call V Unit) := by
  induction capabilityIds with
  | nil => exact .ret ()
  | cons capabilityId rest ih =>
    exact .seq (asks_registryGet _) fun _ => .seq (.require (by simp)) fun _ => ih

theorem asks_validateBoundSteps : Asks (validateBoundSteps definition) := by
  have hSteps := asks_validateSteps definition
  refine ⟨.seq hSteps.reads.attempt fun _ => .ofExcept _,
    hSteps.silent.rethrow fun e message he => ?_⟩
  cases e <;> simp_all [asMismatch]

theorem asks_definitionVersionBindings (capability : Option CapabilitySpec) :
    Asks (definitionVersionBindings definition capability) := by
  refine .seq (asks_validateBoundSteps definition) fun _ => .seq ?_ fun found => ?_
  · cases capability with
    | none => exact asks_registryGet definition.workflowId
    | some capability => exact .ret _
  · cases found with
    | none => exact .raise (by simp)
    | some capability => exact .seq (.require (by simp)) fun _ => asks_bindCapabilities _

theorem asks_checkBinding (capabilityId : String) : Asks (Pass.checkBinding cfg capabilityId) := by
  unfold Pass.checkBinding
  split
  · exact .seq (asks_registryGet _) fun _ => .seq (.require (by simp)) fun _ =>
      asks_assertTaskBindings
  · exact .ret ()

theorem asks_checkAdmission (capability : CapabilitySpec) :
    Asks (checkAdmission cfg definition capability) := by
  unfold checkAdmission
  split
  · exact .seq (asks_definitionVersionBindings _ _) fun _ => asks_assertTaskBindings
  · exact asks_validateSteps _

theorem asks_checkResumeBindings : Asks (checkResumeBindings cfg definition) := by
  unfold checkResumeBindings
  split
  · exact .seq (asks_definitionVersionBindings _ _) fun _ => asks_assertTaskBindings
  · exact .ret ()

end

/-! ## What was admitted once is admitted again -/

theorem run_seq_ok {b : β} (hRun : (p >>= k).run w = (.ok b, w')) :
    ∃ a s, p.run w = (.ok a, s) ∧ (k a).run s = (.ok b, w') := by
  rw [Prog.run_bind] at hRun
  cases hp : p.run w with
  | mk r s =>
    rw [hp] at hRun
    cases r with
    | ok a => exact ⟨a, s, rfl, hRun⟩
    | error e => exact nomatch (Prod.mk.inj hRun).1

/-- The checks a resume makes, and whether they pass under given collaborators. -/
structure Admitted (cfg : Config V) (definition : Definition V) (env : Env V) : Prop where
  bindings : ∀ w : World V, w.env = env →
    (checkResumeBindings cfg definition).run w = (.ok (), w)
  confirmed : ∀ step ∈ definition.steps, step.confirmedCapabilityId.isSome →
    ∀ w : World V, w.env = env → (validateConfirmedCapability step).run w = (.ok (), w)

variable {steps : List (Step V)}

theorem confirmed_of_validateStepCapabilities
    (hRun : (validateStepCapabilities steps).run w = (.ok (), w')) :
    ∀ step ∈ steps, step.confirmedCapabilityId.isSome →
      ∀ v : World V, v.env = w.env → (validateConfirmedCapability step).run v = (.ok (), v) := by
  induction steps generalizing w with
  | nil => intro step hMem; cases hMem
  | cons step rest ih =>
    obtain ⟨_, s₁, hGet, hRun⟩ := run_seq_ok hRun
    obtain ⟨_, s₂, hUsable, hRun⟩ := run_seq_ok hRun
    obtain ⟨_, s₃, hDeclared, hRest⟩ := run_seq_ok hRun
    -- no check writes, so the rest of the loop starts in the same world
    obtain rfl := (Reads.ask _).unchanged hGet
    obtain rfl := (Reads.require _ _).unchanged hUsable
    obtain rfl := (asks_validateConfirmedIfDeclared step).reads.unchanged hDeclared
    intro st hMem hSome v hEnv
    rcases mem_cons.mp hMem with rfl | hMem
    · rw [validateConfirmedIfDeclared, if_pos hSome] at hDeclared
      exact (asks_validateConfirmedCapability st).reads.transfer hEnv hDeclared
    · exact ih hRest st hMem hSome v hEnv

theorem run_ask {a : α} (hAnswer : answer w.env = .ok a) : (ask answer).run w = (.ok a, w) := by
  rw [ask, Prog.run_bind_ok (Prog.run_read _ _), Prog.run_ofExcept, hAnswer]

/-- It makes no difference whether the registered workflow capability is given
or looked up. -/
theorem run_definitionVersionBindings_none {definition : Definition V} {capability : CapabilitySpec}
    (hRegistered : w.env.registry definition.workflowId = .ok (some capability)) :
    (definitionVersionBindings definition none).run w =
      (definitionVersionBindings definition (some capability)).run w := by
  obtain ⟨f, hf⟩ := (asks_validateBoundSteps definition).reads
  unfold definitionVersionBindings
  rw [Prog.run_bind, Prog.run_bind, hf w]
  cases f w.env with
  | error e => rfl
  | ok u =>
    have hFound : (workflowCapabilityOr none definition).run w = (.ok (some capability), w) := by
      show (ask fun env => env.registry definition.workflowId).run w = _
      exact run_ask hRegistered
    exact Prog.run_bind_ok hFound

theorem confirmed_of_validateSteps {definition : Definition V}
    (hRun : (validateSteps definition).run w = (.ok (), w')) :
    ∀ step ∈ definition.steps, step.confirmedCapabilityId.isSome →
      ∀ v : World V, v.env = w.env → (validateConfirmedCapability step).run v = (.ok (), v) := by
  obtain ⟨_, s, hStructure, hRun⟩ := run_seq_ok hRun
  rw [Prog.run_ofExcept] at hStructure
  obtain ⟨-, rfl⟩ := Prod.mk.inj hStructure
  exact confirmed_of_validateStepCapabilities hRun

theorem validated_of_definitionVersionBindings {definition : Definition V}
    {capability : Option CapabilitySpec}
    (hRun : (definitionVersionBindings definition capability).run w = (.ok (), w')) :
    (validateSteps definition).run w = (.ok (), w) := by
  obtain ⟨_, _, hBound, -⟩ := run_seq_ok hRun
  obtain ⟨validated, s, hValidated, hPassed⟩ := run_seq_ok hBound
  obtain ⟨f, hf⟩ := (asks_validateSteps definition).reads
  rw [Prog.run_attempt, hf w] at hValidated
  have hEnded : f w.env = validated := Except.ok.inj (Prod.mk.inj hValidated).1
  rw [hf w, hEnded]
  cases validated with
  | ok u => rfl
  | error e => exact nomatch (Prod.mk.inj hPassed).1

/-- What is checked before the first step covers every later resume, as long as
the collaborators stay as they are. -/
theorem admitted_of_check {cfg : Config V} {args : ExecuteArgs V} {definition : Definition V}
    (hSteady : Steady args w.env)
    (hWorkflow : args.workflowCapability.capabilityId = definition.workflowId)
    (hRun : (checkAdmission cfg definition args.workflowCapability).run w = (.ok (), w')) :
    Admitted cfg definition w.env := by
  unfold checkAdmission at hRun
  cases hGate : cfg.humanGate with
  | false =>
    -- without a human gate the steps are validated, and a resume checks no bindings
    rw [hGate, if_neg Bool.false_ne_true] at hRun
    refine ⟨fun v _ => ?_, confirmed_of_validateSteps hRun⟩
    rw [checkResumeBindings, hGate, if_neg Bool.false_ne_true]
    rfl
  | true =>
    rw [hGate, if_pos rfl] at hRun
    obtain ⟨_, s, hBindings, -⟩ := run_seq_ok hRun
    have hSteps := validated_of_definitionVersionBindings hBindings
    refine ⟨fun v hEnv => ?_, confirmed_of_validateSteps hSteps⟩
    -- a resume looks the workflow up where `execute` was given it
    have hRegistered : v.env.registry definition.workflowId =
        .ok (some args.workflowCapability) := by
      rw [hEnv, ← hWorkflow, hSteady.registered]
    have hAgain := (asks_definitionVersionBindings definition _).reads.transfer hEnv hBindings
    rw [← run_definitionVersionBindings_none hRegistered] at hAgain
    rw [checkResumeBindings, hGate, if_pos rfl, Prog.run_bind_ok hAgain]
    exact run_ask (by rw [hEnv, hSteady.assertTaskBindings])

/-! ## Two worlds side by side -/

/-- Two worlds with the same collaborators and the same gateway calls so far. -/
structure Alike (w w' : World V) : Prop where
  env : w'.env = w.env
  sent : w'.sent = w.sent

/-- Two passes over the same definition with the same input. -/
structure Parallel (pass pass' : Pass V) : Prop where
  definition : pass'.definition = pass.definition
  initialInput : pass'.initialInput = pass.initialInput

structure Level (progress progress' : Progress V) : Prop where
  stepOutputs : progress'.stepOutputs = progress.stepOutputs
  finalOutput : progress'.finalOutput = progress.finalOutput

section Steady

variable {cfg : Config V} {args : ExecuteArgs V} {w w' : World V}

theorem run_appendState (hSteady : Steady args w.env) (event : Event) :
    (appendState event).run w = (.ok (), { w with events := event :: w.events }) := by
  rw [appendState, Prog.run_atomic, hSteady.appendEvent]
  rfl

theorem run_reported (event : Event) (e : Exn) (w : World V) :
    ∃ e' v, (appendState event >>= fun _ => .raise e : Call V (RunResult V)).run w =
      (.error e', v) ∧ v.sent = w.sent := by
  rw [Prog.run_bind, appendState, Prog.run_atomic]
  cases w.env.appendEvent with
  | ok u | error e' => exact ⟨_, _, rfl, rfl⟩

theorem run_dropCheckpoint (message : String) (w : World V) :
    ∃ e v, (dropCheckpoint message).run w = (.error e, v) ∧ v.sent = w.sent :=
  run_reported (.workflowFailed .failed (some .internalError)) (.versionBindingMismatch message)
    { w with checkpoint := none }

theorem run_executeEnded_error (cfg : Config V) (e : Exn) (w : World V) :
    ∃ e' v, (executeEnded cfg (.error e)).run w = (.error e', v) ∧ v.sent = w.sent := by
  cases e with
  | valueError message =>
    rw [executeEnded]
    split
    · exact run_reported _ _ w
    · exact ⟨_, _, rfl, rfl⟩
  | versionBindingMismatch message => exact run_reported _ _ w
  | other message => exact ⟨_, _, rfl, rfl⟩

theorem run_executeCapability (pass : Pass V) (index : Nat) (capabilityId : String)
    (arguments : Dict V) (w : World V) :
    (pass.executeCapability index capabilityId arguments).run w =
      ((pass.gatewayCall index capabilityId arguments w).reply,
        { w with calls := pass.gatewayCall index capabilityId arguments w :: w.calls }) :=
  Prog.run_ofExcept _ _

/-- Two programs that return the same from two worlds and leave them alike. -/
def Together (p p' : Call V α) (w w' : World V) : Prop :=
  ∃ r v v', p.run w = (r, v) ∧ p'.run w' = (r, v') ∧ Alike v v' ∧ v.env = w.env

namespace Together

theorem ret (hAlike : Alike w w') (a : α) : Together (.ret a) (.ret a) w w' :=
  ⟨.ok a, w, w', rfl, rfl, hAlike, rfl⟩

theorem reads (hp : Reads p) (hAlike : Alike w w') : Together p p w w' := by
  obtain ⟨f, hf⟩ := hp
  exact ⟨f w.env, w, w', hf w, by rw [hf w', hAlike.env], hAlike, rfl⟩

theorem append (hAlike : Alike w w') (event : Event) :
    Together (appendState event) (appendState event) w w' := by
  unfold Together
  rw [appendState, Prog.run_atomic, Prog.run_atomic, hAlike.env]
  cases w.env.appendEvent with
  | ok u => exact ⟨_, _, _, rfl, rfl, ⟨rfl, hAlike.sent⟩, rfl⟩
  | error e => exact ⟨_, w, w', rfl, rfl, hAlike, rfl⟩

theorem seq {p' : Call V α} {k' : α → Call V β} (hp : Together p p' w w')
    (hk : ∀ a {v v'}, Alike v v' → v.env = w.env → Together (k a) (k' a) v v') :
    Together (p >>= k) (p' >>= k') w w' := by
  obtain ⟨r, v, v', hRun, hRun', hAlike, hEnv⟩ := hp
  unfold Together
  rw [Prog.run_bind, Prog.run_bind, hRun, hRun']
  cases r with
  | error e => exact ⟨_, v, v', rfl, rfl, hAlike, hEnv⟩
  | ok a =>
    obtain ⟨r, u, u', hThen, hThen', hAfter, hEnv'⟩ := hk a hAlike hEnv
    exact ⟨r, u, u', hThen, hThen', hAfter, hEnv'.trans hEnv⟩

theorem skipStep (hAlike : Alike w w') (step : Step V) (index : Nat) :
    Together (Pass.skipStep step index) (Pass.skipStep step index) w w' :=
  (reads (.ask _) hAlike).seq fun _ _ _ hAfter _ => append hAfter _

section

variable (hSteady : Steady args w.env) (hAlike : Alike w w') (pass pass' : Pass V) (index : Nat)
  (capabilityId : String) (arguments : Dict V)

include hSteady hAlike

theorem attemptStep : Together (pass.attemptStep cfg index capabilityId arguments)
    (pass'.attemptStep cfg index capabilityId arguments) w w' := by
  refine (reads (asks_checkBinding cfg capabilityId).reads hAlike).seq fun _ v v' hAlike hEnv =>
    (reads (.ask _) hAlike).seq fun _ u u' hAlike hEnv' => ?_
  -- the passes may differ in request and barrier, which the reply does not depend on
  have hReply : (pass'.gatewayCall index capabilityId arguments u').reply =
      (pass.gatewayCall index capabilityId arguments u).reply := by
    unfold Pass.gatewayCall
    rw [hAlike.env, hEnv', hEnv]
    exact hSteady.gateway _ _ _ _ _ _
  refine ⟨_, _,
    { u' with calls := pass'.gatewayCall index capabilityId arguments u' :: u'.calls },
    run_executeCapability .., ?_, ⟨hAlike.env, ?_⟩, rfl⟩
  · rw [run_executeCapability, hReply]
  · exact congrArg ((capabilityId, arguments) :: ·) hAlike.sent

theorem attempts (retries attempt : Nat) :
    Together (pass.attempts cfg index capabilityId arguments retries attempt)
      (pass'.attempts cfg index capabilityId arguments retries attempt) w w' := by
  induction retries generalizing attempt w w' with
  | zero =>
    exact (attemptStep hSteady hAlike pass pass' index capabilityId arguments).seq
      fun _ _ _ hAfter _ => ret hAfter _
  | succ retries ih =>
    refine (attemptStep hSteady hAlike pass pass' index capabilityId arguments).seq
      fun execution v v' hAfter hEnv => ?_
    cases execution.retryable with
    | false => exact ret hAfter _
    | true => exact ih (hEnv ▸ hSteady) hAfter (attempt + 1)

end

end Together

end Steady

/-! ## The simulation -/

section Simulation

variable {cfg : Config V} {args : ExecuteArgs V} {caller : Nat} {named : Bool}

@[simp] theorem resumeAll_error (n : Nat) (e : Exn) (w : World V) :
    resumeAll cfg caller named n (.error e, w) = (.error e, w) := by
  cases n <;> rfl

variable {result : RunResult V}

theorem resumeAll_ended (n : Nat) (hEnded : result.status ≠ .waitingConfirm) (w : World V) :
    resumeAll cfg caller named n (.ok result, w) = (.ok result, w) := by
  cases n with
  | zero => rfl
  | succ n => exact if_neg hEnded

/-- Resuming the first run up to `n` times, one observes what the second shows,
and the second does not wait. -/
def Sim (cfg : Config V) (caller : Nat) (named : Bool) (n : Nat)
    (ended ended' : Except Exn (RunResult V) × World V) : Prop :=
  observed (resumeAll cfg caller named n ended) = observed ended' ∧
    ∀ result, ended'.1 = .ok result → result.status ≠ .waitingConfirm

variable {w w' : World V} {n : Nat}

theorem sim_error (hAlike : Alike w w') (e e' : Exn) :
    Sim cfg caller named n (.error e, w) (.error e', w') := by
  refine ⟨?_, fun result hResult => nomatch hResult⟩
  rw [resumeAll_error]
  exact Prod.ext rfl hAlike.sent.symm

theorem sim_ended (hAlike : Alike w w') {result' : RunResult V}
    (hSummary : result.summary = result'.summary) (hEnded : result.status ≠ .waitingConfirm) :
    Sim cfg caller named n (.ok result, w) (.ok result', w') := by
  have hStatus : result.status = result'.status := congrArg Prod.fst hSummary
  refine ⟨?_, ?_⟩
  · rw [resumeAll_ended n hEnded]
    exact Prod.ext (congrArg some hSummary) hAlike.sent.symm
  · intro r hr
    rw [← Except.ok.inj hr, ← hStatus]
    exact hEnded

theorem sim_seq {p p' : Call V α} {k k' : α → Call V (RunResult V)} (hp : Together p p' w w')
    (hk : ∀ a {v v'}, p.run w = (.ok a, v) → Alike v v' → v.env = w.env →
      Sim cfg caller named n ((k a).run v) ((k' a).run v')) :
    Sim cfg caller named n ((p >>= k).run w) ((p' >>= k').run w') := by
  obtain ⟨r, v, v', hRun, hRun', hAlike, hEnv⟩ := hp
  rw [Prog.run_bind, Prog.run_bind, hRun, hRun']
  cases r with
  | error e => exact sim_error hAlike e e
  | ok a => exact hk a hRun hAlike hEnv

variable {capabilityId : String}

variable {ended' : Except Exn (RunResult V) × World V} {step : Step V} {rest : List (Step V)}
  {arguments : Dict V} {pass pass' : Pass V} {progress : Progress V}
  {next' : Progress V → Call V (RunResult V)} {index : Nat}
  {ended : Except Exn (RunResult V) × World V}

theorem sim_resumeEnded (expected : Option String) (hSim : Sim cfg caller named n ended ended') :
    Sim cfg caller named n ((resumeEnded cfg expected ended.1).run ended.2) ended' := by
  obtain ⟨hObserved, hFinal⟩ := hSim
  obtain ⟨r, w⟩ := ended
  refine ⟨?_, hFinal⟩
  rw [← hObserved]
  have hDropped : ∀ message e, observed (resumeAll cfg caller named n
      ((dropCheckpoint message).run w)) =
        observed (resumeAll cfg caller named n (.error e, w)) := by
    intro message e
    obtain ⟨e', v, hRun, hSent⟩ := run_dropCheckpoint message w
    rw [hRun, resumeAll_error, resumeAll_error]
    exact Prod.ext rfl hSent
  cases r with
  | ok result =>
    by_cases hWaiting : result.status = .waitingConfirm
    · rw [resumeEnded, if_pos hWaiting]
      rfl
    · -- the checkpoint is dropped, which nobody asks for any more
      rw [resumeEnded, if_neg hWaiting]
      show observed (resumeAll cfg caller named n (.ok result, _)) = _
      rw [resumeAll_ended n hWaiting, resumeAll_ended n hWaiting]
      rfl
  | error e =>
    cases e with
    | valueError message =>
      rw [resumeEnded]
      split
      · exact hDropped _ _
      · rfl
    | versionBindingMismatch message =>
      exact hDropped _ _
    | other message => rfl

variable {checkpoint : Checkpoint V}

theorem run_checkExpectedDigest {action : PendingAction V}
    (hWaiting : w.checkpoint = some checkpoint) (hAction : checkpoint.pendingAction = .ok action) :
    (checkExpectedDigest cfg (namedDigest cfg named w)).run w = (.ok (), w) := by
  have hPending : pendingActionDigest cfg w.checkpoint = .ok (cfg.digest action) := by
    rw [hWaiting, pendingActionDigest, hAction]
    rfl
  cases named with
  | false => rfl
  | true =>
    have hNamed : namedDigest cfg true w = some (cfg.digest action) := by
      rw [namedDigest, if_pos rfl, hPending]
      rfl
    have hRead : (pendingConfirmationActionDigest cfg).run w = (.ok (cfg.digest action), w) := by
      rw [pendingConfirmationActionDigest, Prog.run_bind_ok (Prog.run_read _ _),
        Prog.run_ofExcept, hPending]
    rw [hNamed, checkExpectedDigest, Prog.run_bind_ok hRead, Prog.run_require, if_pos rfl]

variable (cfg caller named) in
theorem run_resume (hSteady : Steady args w.env)
    (hAdmitted : Admitted cfg checkpoint.definition w.env)
    (hWaiting : w.checkpoint = some checkpoint) (hRemaining : checkpoint.remaining = step :: rest)
    (hDeclared : step.confirmedCapabilityId = some capabilityId)
    (hArguments : step.arguments checkpoint.initialInput checkpoint.stepOutputs = .ok arguments) :
    ∃ v : World V, v.env = w.env ∧ v.sent = w.sent ∧
      (resume cfg caller true (namedDigest cfg named w)).run w =
        let ended := ((checkpoint.pass caller).runSteps cfg (step :: rest)
          checkpoint.waitingStepIndex (.initial checkpoint.stepOutputs)).run v
        (resumeEnded cfg (namedDigest cfg named w) ended.1).run ended.2 := by
  have hStep : step ∈ checkpoint.definition.steps := by
    have hMem : step ∈ checkpoint.remaining := by
      rw [hRemaining]
      exact mem_cons_self
    exact mem_of_mem_drop hMem
  have hValid := hAdmitted.confirmed step hStep (by rw [hDeclared]; rfl) w rfl
  have hAction : ∃ action, checkpoint.pendingAction = .ok action := by
    unfold Checkpoint.pendingAction
    rw [hRemaining]
    dsimp only
    rw [hDeclared, hArguments]
    exact ⟨_, rfl⟩
  obtain ⟨action, hAction⟩ := hAction
  let event := Event.workflowResumed checkpoint.definition.workflowId
    checkpoint.definition.version step.stepId checkpoint.waitingStepIndex
    step.confirmedCapabilityId
  refine ⟨{ w with events := event :: w.events }, rfl, rfl, ?_⟩
  -- the checks of `resume` in the order of the source, each of which passes
  rw [resume, Prog.run_bind_ok (Prog.run_require _ _ _), Prog.run_bind_ok (Prog.run_read _ _),
    hWaiting]
  rw [Prog.run_bind_ok (Prog.run_attempt _ _), resumePass,
    Prog.run_bind_ok (run_checkExpectedDigest hWaiting hAction),
    Prog.run_bind_ok (hAdmitted.bindings w rfl), hRemaining]
  rw [Prog.run_bind_ok hValid, Prog.run_bind_ok (run_appendState hSteady _), hWaiting]

variable {progress' : Progress V}

theorem sim_complete (hAlike : Alike w w') (hPass : Parallel pass pass')
    (hLevel : Level progress progress') :
    Sim cfg caller named n ((pass.complete progress).run w)
      ((pass'.complete progress').run w') := by
  unfold Pass.complete
  rw [hPass.definition, hLevel.stepOutputs, hLevel.finalOutput]
  refine sim_seq (.reads (.ofExcept _) hAlike) fun output _ _ _ hAfter _ =>
    sim_seq (.append hAfter _) fun _ _ _ _ hAfter _ => sim_ended hAfter ?_ ?_
  · exact Prod.ext rfl (Prod.ext hLevel.stepOutputs.symm rfl)
  · exact fun hStatus => nomatch hStatus

variable {execution : ExecutionResult V}

/-- A step that was executed and does not wait: the pass goes on or ends, in
both runs alike. -/
theorem sim_settleStep (hAlike : Alike w w') (pass pass' : Pass V)
    (hOutputs : progress'.stepOutputs = progress.stepOutputs) (step : Step V) (index : Nat)
    (capabilityId : String) (hStatus : execution.status ≠ .waitingUser) (attempt : Nat)
    {next : Progress V → Call V (RunResult V)}
    (hNext : ∀ {q q' v v'}, Level q q' → Alike v v' → v.env = w.env →
      Sim cfg caller named n ((next q).run v) ((next' q').run v')) : Sim cfg caller named n
      ((pass.settleStep cfg step index capabilityId execution attempt progress next).run w)
      ((pass'.settleStep cfg step index capabilityId execution attempt progress' next').run
        w') := by
  -- The two events that end a run, and the results they end it with.
  have hTwo : ∀ (e₁ e₂ : Event) (result result' : RunResult V), result.summary = result'.summary →
      result.status ≠ .waitingConfirm →
      Sim cfg caller named n
        ((do appendState e₁; appendState e₂; return result : Call V (RunResult V)).run w)
        ((do appendState e₁; appendState e₂; return result' : Call V (RunResult V)).run w') := by
    intro e₁ e₂ result result' hSummary hEnded
    exact sim_seq (.append hAlike _) fun _ _ _ _ hFirst _ =>
      sim_seq (.append hFirst _) fun _ _ _ _ hAfter _ => sim_ended hAfter hSummary hEnded
  have hFailed : Sim cfg caller named n
      ((pass.fail step index execution attempt progress).run w)
      ((pass'.fail step index execution attempt progress').run w') := by
    refine hTwo _ _ _ _ ?_ ?_
    · exact Prod.ext rfl (Prod.ext hOutputs.symm rfl)
    · show (if execution.status == .timeout then RunStatus.timeout else .failed) ≠ _
      split <;> decide
  unfold Pass.settleStep
  cases hCase : execution.status with
  | waitingUser => exact absurd hCase hStatus
  | denied =>
    refine hTwo _ _ _ _ ?_ ?_
    · exact Prod.ext rfl (Prod.ext hOutputs.symm rfl)
    · exact fun hStatus => nomatch hStatus
  | completed =>
    refine sim_seq (.append hAlike _) fun _ _ _ _ hAfter hEnv => hNext ⟨?_, rfl⟩ hAfter hEnv
    exact congrArg (Dict.set step.stepId (execution.data.getD [])) hOutputs
  | failed | bindingRequired | timeout | noCapabilityFound | running => exact hFailed

theorem run_runSteps_selected
    (hSelected : step.selected cfg.equal pass.initialInput progress.stepOutputs = .ok true)
    (hArguments : step.arguments pass.initialInput progress.stepOutputs = .ok arguments)
    (hCapability : pass.capabilityFor step index = .ok capabilityId) :
    pass.runSteps cfg (step :: rest) index progress =
      pass.attempts cfg index capabilityId arguments maxStepRetries 1 >>= fun executed =>
        pass.settleStep cfg step index capabilityId executed.1 executed.2 progress
          (pass.runSteps cfg rest (index + 1)) := by
  rw [Pass.runSteps, hSelected, Prog.ofExcept, Prog.bind_ret, if_pos rfl, hArguments,
    Prog.ofExcept, Prog.bind_ret, hCapability, Prog.ofExcept, Prog.bind_ret]

/-- The world in which a step has begun to wait. -/
def World.waiting (w : World V) (pass : Pass V) (step : Step V) (index : Nat)
    (execution : ExecutionResult V) (attempt : Nat) (progress : Progress V) : World V :=
  { w with
    events := .workflowWaitingConfirm
        (checkpointState pass.definition step index pass.initialInput progress.stepOutputs) ::
      .stepFinished step.stepId index .waitingConfirm (some attempt) execution.errorCode ::
      w.events
    checkpoint := some
      { definition := pass.definition
        waitingStepIndex := index
        request := pass.request
        initialInput := pass.initialInput
        stepOutputs := progress.stepOutputs
        confirmationBarrier := pass.confirmationBarrier } }

theorem run_wait (hSteady : Steady args w.env) (hIndex : pass.confirmedStepIndex ≠ some index)
    (hDeclared : step.confirmedCapabilityId.isSome) (execution : ExecutionResult V) (attempt : Nat)
    (progress : Progress V) : (pass.wait step index execution attempt progress).run w =
      (.ok (pass.result .waitingConfirm (.last []) progress execution.errorCode []),
        w.waiting pass step index execution attempt progress) := by
  rw [Pass.wait, Prog.run_bind_ok (by rw [Prog.run_require, if_pos hIndex]),
    Prog.run_bind_ok (by rw [Prog.run_require, if_pos hDeclared]),
    Prog.run_bind_ok (run_appendState hSteady _)]
  exact Prog.run_bind_ok (run_appendState
    (show Steady args { w with events := _ }.env from hSteady) _)

/-- What the induction over the remaining steps carries along. -/
structure Onward (cfg : Config V) (args : ExecuteArgs V) (pass pass' : Pass V)
    (steps : List (Step V)) (index : Nat) (w w' : World V) : Prop where
  steady : Steady args w.env
  admitted : Admitted cfg pass.definition w.env
  parallel : Parallel pass pass'
  remaining : pass.definition.steps.drop index = steps
  confirmedBefore : ∀ k, pass.confirmedStepIndex = some k → k < index
  alike : Alike w w'

theorem Onward.next (hOn : Onward cfg args pass pass' (step :: rest) index w w') {v v' : World V}
    (hEnv : v.env = w.env) (hAlike : Alike v v') :
    Onward cfg args pass pass' rest (index + 1) v v' where
  steady := hEnv ▸ hOn.steady
  admitted := hEnv ▸ hOn.admitted
  parallel := hOn.parallel
  remaining := by rw [← tail_drop, hOn.remaining, tail_cons]
  confirmedBefore k hk := Nat.lt_succ_of_lt (hOn.confirmedBefore k hk)
  alike := hAlike

theorem Onward.at (hOn : Onward cfg args pass pass' steps index w w') {v v' : World V}
    (hEnv : v.env = w.env) (hAlike : Alike v v') : Onward cfg args pass pass' steps index v v' :=
  { hOn with steady := hEnv ▸ hOn.steady, admitted := hEnv ▸ hOn.admitted, alike := hAlike }

theorem Onward.capabilityFor (hOn : Onward cfg args pass pass' (step :: rest) index w w') :
    pass.confirmedStepIndex ≠ some index ∧
      pass.capabilityFor step index = .ok step.capabilityId := by
  have hNot : pass.confirmedStepIndex ≠ some index :=
    fun hEq => absurd (hOn.confirmedBefore index hEq) (Nat.lt_irrefl index)
  exact ⟨hNot, if_neg hNot⟩

theorem sim_of_resume (hWaiting : result.status = .waitingConfirm) (hSim : Sim cfg caller named n
      ((resume cfg caller true (namedDigest cfg named w)).run w) ended') :
    Sim cfg caller named (n + 1) (.ok result, w) ended' := by
  refine ⟨?_, hSim.2⟩
  rw [resumeAll, if_pos hWaiting]
  exact hSim.1

/-- The resumed step: the confirmed capability is called with the arguments the
waiting one was called with, and the pass goes on from there. -/
theorem sim_resumed (pass pass' : Pass V) (progress progress' : Progress V)
    (hSteady : Steady args w.env) (hAlike : Alike w w')
    (hOutputs : progress'.stepOutputs = progress.stepOutputs)
    (hConfirmed : pass.confirmedStepIndex = some index)
    (hSelected : step.selected cfg.equal pass.initialInput progress.stepOutputs = .ok true)
    (hArguments : step.arguments pass.initialInput progress.stepOutputs = .ok arguments)
    (hDeclared : step.confirmedCapabilityId = some capabilityId)
    (hNext : ∀ {q q' v v'}, Level q q' → Alike v v' → v.env = w.env →
      Sim cfg caller named n ((pass.runSteps cfg rest (index + 1) q).run v) ((next' q').run v')) :
    Sim cfg caller named n ((pass.runSteps cfg (step :: rest) index progress).run w)
      ((do
        let confirmed ← pass'.attempts cfg index capabilityId arguments maxStepRetries 1
        Prog.require (confirmed.1.status ≠ .waitingUser)
          (.other "confirmed Workflow capability requested confirmation again")
        pass'.settleStep cfg step index capabilityId confirmed.1 confirmed.2 progress'
          next' : Call V (RunResult V)).run w') := by
  have hCapability : pass.capabilityFor step index = .ok capabilityId := by
    rw [Pass.capabilityFor, if_pos hConfirmed, hDeclared]
  rw [run_runSteps_selected hSelected hArguments hCapability]
  refine sim_seq (.attempts hSteady hAlike ..) fun executed v v' _ hAfter hEnv => ?_
  by_cases hAgain : executed.1.status = .waitingUser
  · -- The confirmed capability may not ask again.
    have hRaised : (pass.settleStep cfg step index capabilityId executed.1 executed.2 progress
        (pass.runSteps cfg rest (index + 1))).run v = (.error (.other
          "confirmed Workflow capability requested confirmation again"), v) := by
      rw [Pass.settleStep, hAgain]
      exact Prog.run_bind_error (by rw [Prog.run_require, if_neg (not_not_intro hConfirmed)])
    rw [hRaised, Prog.run_bind_error (by rw [Prog.run_require, if_neg (not_not_intro hAgain)])]
    exact sim_error hAfter _ _
  · rw [Prog.run_bind_ok (by rw [Prog.run_require, if_pos hAgain])]
    exact sim_settleStep hAfter pass pass' hOutputs step index capabilityId hAgain _
      fun hLevel' hAlike' hEnv' => hNext hLevel' hAlike' (hEnv'.trans hEnv)

theorem sim_waiting (hOn : Onward cfg args pass pass' (step :: rest) index w w')
    (hLevel : Level progress progress')
    (hSelected : step.selected cfg.equal pass.initialInput progress.stepOutputs = .ok true)
    (hArguments : step.arguments pass.initialInput progress.stepOutputs = .ok arguments)
    (hStatus : execution.status = .waitingUser) (attempt : Nat)
    (hNext : ∀ {resumed : Pass V} {q q' v v'}, Onward cfg args resumed pass' rest (index + 1) v v' →
      Level q q' → Sim cfg caller named n ((resumed.runSteps cfg rest (index + 1) q).run v)
        ((next' q').run v')) : Sim cfg caller named (n + 1)
      ((pass.settleStep cfg step index step.capabilityId execution attempt progress
        (pass.runSteps cfg rest (index + 1))).run w)
      ((do
        let capabilityId ← Prog.ofExcept step.confirmedCapability
        let confirmed ← pass'.attempts cfg index capabilityId arguments maxStepRetries 1
        Prog.require (confirmed.1.status ≠ .waitingUser)
          (.other "confirmed Workflow capability requested confirmation again")
        pass'.settleStep cfg step index capabilityId confirmed.1 confirmed.2 progress'
          next' : Call V (RunResult V)).run w') := by
  obtain ⟨hNot, -⟩ := hOn.capabilityFor
  rw [Pass.settleStep, hStatus]
  dsimp only
  cases hDeclared : step.confirmedCapabilityId with
  | none =>
    -- a step that may not wait raises in the one run as in the other
    have hRaised : (pass.wait step index execution attempt progress).run w = (.error (.valueError
        "waiting Workflow step must declare a confirmed capability"), w) := by
      rw [Pass.wait, Prog.run_bind_ok (by rw [Prog.run_require, if_pos hNot])]
      exact Prog.run_bind_error (by rw [Prog.run_require, hDeclared]; rfl)
    rw [hRaised, Step.confirmedCapability, hDeclared]
    exact sim_error hOn.alike _ _
  | some capabilityId =>
    have hSome : step.confirmedCapabilityId.isSome := Option.isSome_of_mem hDeclared
    rw [run_wait hOn.steady hNot hSome, Step.confirmedCapability, hDeclared, Prog.ofExcept,
      Prog.bind_ret]
    refine sim_of_resume rfl ?_
    -- The checkpoint holds what the pass had: definition, input and outputs.
    obtain ⟨v, hEnv, hSent, hRun⟩ := run_resume cfg caller named
      (w := w.waiting pass step index execution attempt progress) hOn.steady hOn.admitted rfl
      hOn.remaining hDeclared hArguments
    have hSteady : Steady args v.env := by
      rw [hEnv]
      exact hOn.steady
    have hAlike : Alike v w' := ⟨hOn.alike.env.trans hEnv.symm, hOn.alike.sent.trans hSent.symm⟩
    rw [hRun]
    refine sim_resumeEnded _ ?_
    refine sim_resumed _ pass' (.initial progress.stepOutputs) progress'
      hSteady hAlike hLevel.stepOutputs rfl hSelected hArguments hDeclared
      fun hLevel' hAlike' hEnv' => ?_
    refine hNext ?_ hLevel'
    exact
      { steady := by rw [hEnv']; exact hSteady
        admitted := by rw [hEnv', hEnv]; exact hOn.admitted
        parallel := ⟨hOn.parallel.definition, hOn.parallel.initialInput⟩
        remaining := by
          show pass.definition.steps.drop (index + 1) = rest
          rw [← tail_drop, hOn.remaining, tail_cons]
        confirmedBefore := fun k hk => by
          obtain rfl : index = k := Option.some.inj hk
          exact Nat.lt_succ_self index
        alike := hAlike' }

/--
**The simulation.** From any step on, a pass that is resumed whenever it waits
shows what the pass that never waits shows.
-/
theorem sim_runSteps : ∀ {n index : Nat} {pass pass' : Pass V}
    {progress progress' : Progress V} {w w' : World V},
    Onward cfg args pass pass' steps index w w' → Level progress progress' →
    steps.length ≤ n →
    Sim cfg caller named n ((pass.runSteps cfg steps index progress).run w)
      ((pass'.runThrough cfg steps index progress').run w') := by
  -- on the steps that are left; pass and index change with every resume
  induction steps with
  | nil =>
    intro n index pass pass' progress progress' w w' hOn hLevel _
    exact sim_complete hOn.alike hOn.parallel hLevel
  | cons step rest ih =>
    intro n index pass pass' progress progress' w w' hOn hLevel hn
    rw [length_cons] at hn
    unfold Pass.runSteps Pass.runThrough
    rw [hOn.parallel.initialInput, hLevel.stepOutputs, hOn.capabilityFor.2]
    refine sim_seq (.reads (.ofExcept _) hOn.alike) fun selected v v' hSelected hAlike hEnv => ?_
    have hOn := hOn.at hEnv hAlike
    rw [Prog.run_ofExcept] at hSelected
    cases selected with
    | false =>
      exact sim_seq (.skipStep hAlike step index) fun _ _ _ _ hAlike hEnv =>
        ih (hOn.next hEnv hAlike) hLevel (by omega)
    | true =>
      refine sim_seq (.reads (.ofExcept _) hAlike) fun arguments v v' hArguments hAlike hEnv => ?_
      have hOn := hOn.at hEnv hAlike
      rw [Prog.run_ofExcept] at hArguments
      refine sim_seq (.attempts hOn.steady hAlike ..) fun executed v v' _ hAfter hEnv => ?_
      by_cases hWaiting : executed.1.status = .waitingUser
      · -- a wait costs one resume, and there are as many as steps that are left
        rw [if_pos hWaiting]
        obtain ⟨m, rfl⟩ : ∃ m, n = m + 1 := ⟨n - 1, by omega⟩
        refine sim_waiting (hOn.at hEnv hAfter) hLevel (Prod.mk.inj hSelected).1
          (Prod.mk.inj hArguments).1 hWaiting _ ?_
        exact fun hOn' hLevel' => ih hOn' hLevel' (by omega)
      · rw [if_neg hWaiting]
        exact sim_settleStep hAfter pass pass' hLevel.stepOutputs step index _ hWaiting _
          fun hLevel' hAlike' hEnv' => ih (hOn.next (hEnv'.trans hEnv) hAlike') hLevel' (by omega)

theorem sim_executeEnded (hSim : Sim cfg caller named n ended ended') :
    Sim cfg caller named n ((executeEnded cfg ended.1).run ended.2)
      ((executeEnded cfg ended'.1).run ended'.2) := by
  obtain ⟨hObserved, hFinal⟩ := hSim
  obtain ⟨r, w⟩ := ended
  obtain ⟨r', w'⟩ := ended'
  have hLeft : observed (resumeAll cfg caller named n ((executeEnded cfg r).run w)) =
      observed (resumeAll cfg caller named n (r, w)) := by
    cases r with
    | ok result => rfl
    | error e =>
      obtain ⟨e', v, hRun, hSent⟩ := run_executeEnded_error cfg e w
      rw [hRun, resumeAll_error, resumeAll_error]
      exact Prod.ext rfl hSent
  cases r' with
  | ok result => exact ⟨hLeft.trans hObserved, hFinal⟩
  | error e =>
    obtain ⟨e', v, hRun, hSent⟩ := run_executeEnded_error cfg e w'
    rw [hRun]
    refine ⟨hLeft.trans (hObserved.trans ?_), fun result hResult => nomatch hResult⟩
    exact Prod.ext rfl hSent.symm

theorem definition_of_snapshot {workflowId expectedVersion : String} {definition : Definition V}
    (hSnapshot : snapshotDefinition cfg workflowId expectedVersion = .ok definition) :
    cfg.definitions workflowId = some definition := by
  unfold snapshotDefinition at hSnapshot
  cases hFound : cfg.definitions workflowId with
  | none =>
    rw [hFound] at hSnapshot
    cases hSnapshot
  | some found =>
    rw [hFound] at hSnapshot
    dsimp only at hSnapshot
    split at hSnapshot
    · rw [Except.ok.inj hSnapshot]
    · cases hSnapshot

/--
**Waiting makes no difference.** For collaborators that work and a gateway whose
reply is a function of the capability and its arguments, executing a workflow
and resuming it after every wait shows the same status, step outputs, output and
gateway calls as the uninterrupted run. As many resumes as there are steps are
enough for it to end.
-/
theorem resumed_run_eq_uninterrupted (cfg : Config V) (args : ExecuteArgs V) (caller : Nat)
    (named : Bool) (w : World V) (hSteady : Steady args w.env) (n : Nat)
    (hEnough : ∀ definition, cfg.definitions args.workflowId = some definition →
      definition.steps.length ≤ n) :
    observed (resumeAll cfg caller named n ((execute cfg caller args).run w)) =
        observed ((executeThrough cfg caller args).run w) ∧
      ∀ result, ((executeThrough cfg caller args).run w).1 = .ok result →
        result.status ≠ .waitingConfirm := by
  refine sim_seq (.reads (.ofExcept _) ⟨rfl, rfl⟩) fun definition v v' hSnapshot hAlike hEnv => ?_
  refine sim_seq (.reads (.require _ _) hAlike) fun _ v₁ v₁' hWorkflow hAlike hEnv₁ => ?_
  refine sim_seq (.reads (asks_checkAdmission ..).reads hAlike)
    fun _ v₂ v₂' hAdmit hAlike hEnv₂ => ?_
  refine sim_seq (.append hAlike _) fun _ v₃ v₃' _ hAlike hEnv₃ => ?_
  rw [Prog.run_ofExcept] at hSnapshot
  have hDefinition := definition_of_snapshot (Prod.mk.inj hSnapshot).1
  obtain ⟨-, -, hSame, -⟩ := Prog.of_run_require hWorkflow
  rw [← hEnv, ← hEnv₁] at hSteady
  have hAdmitted := admitted_of_check hSteady hSame hAdmit
  rw [Prog.run_bind_ok (Prog.run_attempt _ _), Prog.run_bind_ok (Prog.run_attempt _ _)]
  have hOn : Onward cfg args (args.pass caller definition) (args.pass caller definition)
      definition.steps 0 v₃ v₃' :=
    { steady := by rwa [hEnv₃, hEnv₂]
      admitted := by rwa [hEnv₃, hEnv₂]
      parallel := ⟨rfl, rfl⟩
      remaining := rfl
      confirmedBefore := fun k hk => nomatch hk
      alike := hAlike }
  exact sim_executeEnded (sim_runSteps hOn ⟨rfl, rfl⟩ (hEnough _ hDefinition))

end Simulation

/-! ## A workflow with one confirmation -/

namespace Sample

/-- Preparing a draft asks the user; what is confirmed is its submission. The
second step takes the id the submission returned. -/
def definition : Definition Nat :=
  { workflowId := "oa.leave"
    version := "1"
    steps :=
      [{ stepId := "submit"
         capabilityId := "oa.prepare"
         confirmedCapabilityId := some "oa.submit"
         staticArguments := [("days", 3)]
         inputMapping := []
         when := none },
       { stepId := "notify"
         capabilityId := "oa.notify"
         confirmedCapabilityId := none
         staticArguments := []
         inputMapping := [("id", ⟨.stepOutput, "id", some "submit"⟩)]
         when := none }]
    outputStepIds := [] }

def config : Config Nat :=
  { definitions := fun workflowId => if workflowId = "oa.leave" then some definition else none
    equal := fun a b => a == b
    digest := fun action => action.stepId
    canonicalObject := fun _ => none
    observable := fun _ => true
    humanGate := true }

def workflow : CapabilitySpec :=
  { capabilityId := "oa.leave", type := .workflow, riskLevel := .low, version := "1"
    status := .active }

def request : Request :=
  { taskId := "task", sessionId := "session", aiUserId := "user", tenantId := "tenant"
    requestId := "request" }

def gateway (capabilityId : String) (_ : Dict Nat) : Except Exn (ExecutionResult Nat) :=
  if capabilityId = "oa.prepare" then
    .ok { status := .waitingUser, data := none, errorCode := some .confirmRequired }
  else if capabilityId = "oa.submit" then
    .ok { status := .completed, data := some [("id", 7)], errorCode := none }
  else .ok { status := .completed, data := some [("sent", 1)], errorCode := none }

def env : Env Nat :=
  { registry := fun capabilityId => .ok (some (if capabilityId = "oa.leave" then workflow else
      { workflow with capabilityId := capabilityId, type := .action }))
    gateway := fun _ _ => gateway
    recordStep := .ok ()
    appendEvent := .ok ()
    assertTaskBindings := .ok () }

def world : World Nat := { env := env, checkpoint := none, calls := [], events := [] }

def args : ExecuteArgs Nat :=
  { workflowId := "oa.leave"
    expectedVersion := "1"
    workflowCapability := workflow
    request := request
    initialInput := []
    confirmationBarrier := false }

theorem steady : Steady args env where
  recordStep := rfl
  appendEvent := rfl
  assertTaskBindings := rfl
  registered := rfl
  gateway _ _ _ _ _ _ := rfl

def statusOf (ended : Except Exn (RunResult Nat) × World Nat) : Option RunStatus :=
  ended.1.toOption.map RunResult.status

end Sample

open Sample

/-- The sample workflow waits, and once resumed it has sent what the
uninterrupted run sends. -/
theorem resumed_run_eq_uninterrupted_sample :
    statusOf ((execute config 0 args).run world) = some .waitingConfirm ∧
      observed (resumeAll config 0 true 2 ((execute config 0 args).run world)) =
          observed ((executeThrough config 0 args).run world) ∧
      (observed ((executeThrough config 0 args).run world)).2 =
        [("oa.notify", [("id", 7)]), ("oa.submit", [("days", 3)]),
          ("oa.prepare", [("days", 3)])] := by
  refine ⟨by decide +kernel, ?_, by decide +kernel⟩
  refine (resumed_run_eq_uninterrupted config args 0 true world steady 2 fun _ hDefinition => ?_).1
  cases hDefinition
  exact Nat.le_refl 2

end EternalAI.Workflow
