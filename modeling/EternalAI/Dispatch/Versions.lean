import EternalAI.Dispatch.Lifecycle

/-!
# Dispatched tasks — versions, entity tags and replays

What the clients of one task can rely on while they interfere with each other.

* `commandLifecycle_ends` — an execution of a request reads, and ends with at
  most one transaction, whose commit may go unanswered.
* `Commits`, `Commits.task` — a command that was carried out: the next version,
  and one event that carries it.
* `commit_unique` — an entity tag is good for one command.
* `Commits.replayed` — the same request later on.
* `commands_serialise` — all of it, for whole histories.
-/

namespace EternalAI.Dispatch

open Lib List

variable {env : Env} {calls : ClientCall → Prop} {w w' : World} {t h : List World}
  {call : CommandCall} {prepared : Prepared} {e : Event}

/-! ## One request -/

def commandTransaction (env : Env) (call : CommandCall) (prepared : Prepared) (w : World) :
    Except DispatchError (MutationResult × World) :=
  (w.command env (call.submission env prepared)).run checkRow .workObjectLifecycleFailed

/-- What a request has prepared when it gets to its transaction, having read the
task in `w₁` and looked for its key in `w₂`. Each of the checks on the way may
refuse it: the actor is no longer in the directory, the task cannot be seen, the
assignee or the new targets are not accepted, there is no audit record, or the
directory is stale. -/
def CommandCall.reaches (env : Env) (call : CommandCall) (w₁ w₂ : World) :
    Except DispatchError Prepared := do
  let member ← memberOf call.subject call.fresh
  let task ← loadManualRoot (scopeOf call.subject (some call.fresh)) (call.clock.reading 0)
    (w₁.tasks call.workObjectId)
  let prepared ← prepareCommand env call member task.root
  let existing ← existingEvent call (w₂.tasks call.workObjectId)
  ensure (existing ∨ call.audited) .workObjectAuditUnavailable
  call.fresh.recheck (call.clock.reading 4)
  pure prepared

theorem reaches_ok {w₁ w₂ : World} : call.reaches env w₁ w₂ = .ok prepared ↔
    ∃ member, memberOf call.subject call.fresh = .ok member ∧
    ∃ task, loadManualRoot (scopeOf call.subject (some call.fresh)) (call.clock.reading 0)
      (w₁.tasks call.workObjectId) = .ok task ∧
    prepareCommand env call member task.root = .ok prepared ∧
    ∃ existing, existingEvent call (w₂.tasks call.workObjectId) = .ok existing ∧
    (existing = true ∨ call.audited = true) ∧
    call.fresh.recheck (call.clock.reading 4) = .ok () := by
  unfold CommandCall.reaches
  simp only [bind_ok, ensure_ok, exists_const]
  constructor
  · rintro ⟨member, hMember, task, hLoad, _, hPrep, existing, hExist, hAudit, ⟨⟩, hFresh, hEq⟩
    cases hEq
    exact ⟨member, hMember, task, hLoad, hPrep, existing, hExist, hAudit, hFresh⟩
  · rintro ⟨member, hMember, task, hLoad, hPrep, existing, hExist, hAudit, hFresh⟩
    exact ⟨member, hMember, task, hLoad, prepared, hPrep, existing, hExist, hAudit, (), hFresh, rfl⟩

variable {ack : Ack} {w₁ w₂ w₃ : World} {result : MutationResult}

/-- **A request reads, and then it is one transaction**, if it gets there. Where the
transaction was committed, only a lost answer makes the request fail. -/
theorem commandLifecycle_ends {steps : List (World × World)}
    {r : Except DispatchError MutationResult}
    (hEnds : (commandLifecycleForPrincipal env call ack).Ends steps r) :
    (∃ code, r = .error code) ∧ Prog.Still steps ∨
      ∃ w₁ w₂ w₃ prepared result w', steps = [(w₁, w₁), (w₂, w₂), (w₃, w')] ∧
        call.reaches env w₁ w₂ = .ok prepared ∧
        commandTransaction env call prepared w₃ = .ok (result, w') ∧
        (ack = .delivered ∧ r = .ok result ∨
          ack = .lost ∧ r = .error .workObjectLifecycleFailed) := by
  -- one check or read after the other: where one refuses, there were only reads before it
  obtain ⟨code, -, rfl, rfl⟩ | ⟨member, hMember, hEnds⟩ := hEnds.of_ofExcept
  · exact .inl ⟨⟨code, rfl⟩, Prog.still_nil⟩
  obtain ⟨w₁, rest, rfl, hTail⟩ := hEnds.of_read
  obtain ⟨code, -, rfl, rfl⟩ | ⟨task, hLoad, hEnds⟩ := hTail.of_ofExcept
  · exact .inl ⟨⟨code, rfl⟩, Prog.still_nil.cons⟩
  obtain ⟨code, -, rfl, rfl⟩ | ⟨prepared, hPrep, hEnds⟩ := hEnds.of_ofExcept
  · exact .inl ⟨⟨code, rfl⟩, Prog.still_nil.cons⟩
  obtain ⟨w₂, rest, rfl, hLast⟩ := hEnds.of_read
  obtain ⟨code, -, rfl, rfl⟩ | ⟨existing, hExist, hEnds⟩ := hLast.of_ofExcept
  · exact .inl ⟨⟨code, rfl⟩, Prog.still_nil.cons.cons⟩
  obtain ⟨-, rfl, rfl⟩ | ⟨hAudit, hEnds⟩ := hEnds.of_require
  · exact .inl ⟨⟨_, rfl⟩, Prog.still_nil.cons.cons⟩
  obtain ⟨code, -, rfl, rfl⟩ | ⟨⟨⟩, hFresh, hEnds⟩ := hEnds.of_ofExcept
  · exact .inl ⟨⟨code, rfl⟩, Prog.still_nil.cons.cons⟩
  obtain ⟨hError, hStill⟩ | ⟨w₃, result, w', hTx, rfl, hAnswer⟩ := hEnds.of_transact
  · exact .inl ⟨hError, hStill.cons.cons⟩
  · refine .inr ⟨w₁, w₂, w₃, prepared, result, w', rfl, ?_, hTx, ?_⟩
    · exact reaches_ok.mpr
        ⟨member, hMember, task, hLoad, hPrep, existing, hExist, hAudit, hFresh⟩
    · exact hAnswer.imp_left fun hTold => ⟨hTold.1.resolve_right nofun, hTold.2⟩

theorem commandLifecycle_answers (hReach : call.reaches env w₁ w₂ = .ok prepared)
    (hTx : commandTransaction env call prepared w₃ = .ok (result, w')) :
    (commandLifecycleForPrincipal env call .delivered).Ends
      [(w₁, w₁), (w₂, w₂), (w₃, w')] (.ok result) := by
  obtain ⟨member, hMember, task, hLoad, hPrep, existing, hExist, hAudit, hFresh⟩ :=
    reaches_ok.mp hReach
  unfold commandLifecycleForPrincipal
  simp only [Prog.ends_ofExcept, Prog.ends_read, Prog.ends_require, true_and]
  exact ⟨member, hMember, task, hLoad, prepared, hPrep, existing, hExist, hAudit, (), hFresh,
    Prog.ends_atomic.mpr hTx⟩

/-! ## Commits -/

/-- The command is carried out in `w`, not answered from the history. -/
def Commits (env : Env) (call : CommandCall) (prepared : Prepared) (w : World) (e : Event)
    (w' : World) : Prop :=
  commandTransaction env call prepared w = .ok (⟨e, false⟩, w')

theorem commandTransaction_ok (hOk : commandTransaction env call prepared w = .ok (result, w')) :
    ∃ task out rows, w.tasks call.workObjectId = some task ∧
      Commanded env (call.submission env prepared) task w.files out rows ∧ result = out.1 ∧
      w' = { w.put call.workObjectId out.2.1 with files := out.2.2 } := by
  obtain ⟨out, hOut, hResult, hAfter⟩ := command_ok hOk
  obtain ⟨task, rows, hTask, hCase, -⟩ := commandTask_ok hOut
  exact ⟨task, out, rows, hTask, hCase, hResult, hAfter⟩

/-- A task before and after a command was carried out on it. -/
structure Committed (env : Env) (call : CommandCall) (task : Task) (e : Event) (task' : Task) :
    Prop where
  version : task'.root.version = task.root.version + 1
  events : task'.events = task.events ++ [e]
  carries : e.resultVersion = task'.root.version
  unused : ∀ x ∈ task.events, ¬ (x.tenantId = call.subject.tenantId ∧
    x.actorAiUserId = call.subject.aiUserId ∧ x.idempotencyKey = call.idempotencyKey)
  key : e.tenantId = call.subject.tenantId ∧ e.actorAiUserId = call.subject.aiUserId ∧
    e.idempotencyKey = call.idempotencyKey
  fingerprint : e.requestFingerprint = env.commandFingerprint call.command
  expected : ∃ view : LifecycleView, view.version = task.root.version ∧ call.ifMatch = view.etag env

/-- **A command that is carried out** makes the next version and one event. -/
theorem Commits.task (hCommit : Commits env call prepared w e w') :
    ∃ task task', w.tasks call.workObjectId = some task ∧
      w'.tasks call.workObjectId = some task' ∧ Committed env call task e task' := by
  obtain ⟨task, out, _, hTask, hCase, hResult, rfl⟩ := commandTransaction_ok hCommit
  cases hCase with
  | replayed => cases hResult
  | mutated hNone hAdmit hMut =>
    obtain ⟨rfl, -⟩ := MutationResult.mk.inj hResult
    refine ⟨task, _, hTask, World.put_tasks_self .., hMut.advances, rfl, rfl, fun x hx => ?_,
      ⟨rfl, rfl, rfl⟩, rfl, ?_⟩
    · -- a request under a key that was used is answered before it is admitted
      have hOther := find?_eq_none.mp hNone x hx
      simpa [and_assoc, CommandCall.submission, scopeOf] using hOther
    · obtain ⟨-, -, hTag⟩ := checkAdmission_ok hAdmit
      exact ⟨_, rfl, hTag⟩

theorem version_of_etag (hDigest : ∀ a b, env.viewDigest a = env.viewDigest b →
    a.version = b.version)
    {a b : LifecycleView} (hEq : a.etag env = b.etag env) : a.version = b.version := by
  refine hDigest a b ?_
  unfold LifecycleView.etag at hEq
  simpa using hEq

variable {t₁ t₂ : List World} {w₁' w₂' : World} {call₁ call₂ : CommandCall}
  {prepared₁ prepared₂ : Prepared} {e₁ e₂ : Event}

section

variable (hDigest : ∀ a b, env.viewDigest a = env.viewDigest b → a.version = b.version)
  (hFirst : Commits env call₁ prepared₁ w₁ e₁ w₁') (hSecond : Commits env call₂ prepared₂ w₂ e₂ w₂')
  (hId : call₁.workObjectId = call₂.workObjectId) (hTag : call₁.ifMatch = call₂.ifMatch)

include hDigest hFirst hSecond hId hTag

theorem not_before_commit (hRun : Run Legacy (WorldStep env calls) (w₂ :: t₂)) :
    ¬ w₁' :: w₁ :: t₁ <:+ w₂ :: t₂ := by
  intro hSuf
  obtain ⟨old₁, new₁, -, hNew₁, hMade₁⟩ := hFirst.task
  obtain ⟨old₂, new₂, hOld₂, -, hMade₂⟩ := hSecond.task
  -- The version has grown since, so the tags are different.
  obtain ⟨later, hLater, hStable⟩ := history_stable hRun suffix_rfl
    (hSuf.subset mem_cons_self) _ new₁ hNew₁
  obtain rfl : later = old₂ := Option.some.inj (hLater.symm.trans (hId ▸ hOld₂))
  obtain ⟨view₁, hView₁, hEtag₁⟩ := hMade₁.expected
  obtain ⟨view₂, hView₂, hEtag₂⟩ := hMade₂.expected
  have hSame := version_of_etag hDigest (hEtag₁.symm.trans (hTag.trans hEtag₂))
  have hGrown := hStable.version
  rw [hMade₁.version, ← hView₁, ← hView₂, hSame] at hGrown
  exact absurd hGrown (Nat.not_succ_le_self _)

/-- **At most one command commits with an entity tag.** -/
theorem commit_unique (hRun : Run Legacy (WorldStep env calls) h) (hSuf₁ : w₁' :: w₁ :: t₁ <:+ h)
    (hSuf₂ : w₂' :: w₂ :: t₂ <:+ h) : w₁' :: w₁ :: t₁ = w₂' :: w₂ :: t₂ := by
  have hBefore : ∀ {w w' : World} {t : List World}, w' :: w :: t <:+ h →
      Run Legacy (WorldStep env calls) (w :: t) := fun hSuf =>
    hRun.of_suffix ((suffix_cons _ _).trans hSuf)
  exact position_eq hSuf₁ hSuf₂
    (not_before_commit hDigest hFirst hSecond hId hTag (hBefore hSuf₂))
    (not_before_commit hDigest hSecond hFirst hId.symm hTag.symm (hBefore hSuf₁))

end

/-! ## Replays -/

/-- Another request for a command under the same key. -/
structure SameRequest (call again : CommandCall) : Prop where
  workObjectId : again.workObjectId = call.workObjectId
  tenantId : again.subject.tenantId = call.subject.tenantId
  aiUserId : again.subject.aiUserId = call.subject.aiUserId
  idempotencyKey : again.idempotencyKey = call.idempotencyKey
  command : again.command = call.command

/-- The actor may see the task and the event, and the directory is fresh. -/
def Answerable (sub : Submission) (task : Task) (e : Event) : Prop :=
  loadManualRoot sub.scope (sub.clock.reading 0) (some task) = .ok task ∧
    recheckScope sub.scope (sub.clock.reading 1) = .ok () ∧
    eventVisible sub.scope (sub.clock.reading 3) task e = true

instance (sub : Submission) (task : Task) (e : Event) : Decidable (Answerable sub task e) :=
  inferInstanceAs (Decidable (_ ∧ _ ∧ _))

variable {task : Task} {again : CommandCall} {prepared' : Prepared}

/-- A key that was used finds the event it was used for, however long the
history has become. -/
theorem Committed.prior {task' later : Task} (hMade : Committed env call task e task')
    (hSame : SameRequest call again) (hLater : task'.events <+: later.events) :
    priorEvent (again.submission env prepared') later = some e := by
  obtain ⟨rest, hRest⟩ := hLater
  unfold priorEvent
  rw [← hRest, hMade.events, append_assoc, find?_append]
  -- no event before the commit has the key, so the search stops at the one that it appended
  have hNone : task.events.find? (fun x =>
      x.tenantId == (again.submission env prepared').scope.tenantId &&
        x.actorAiUserId == (again.submission env prepared').scope.aiUserId &&
        x.idempotencyKey == (again.submission env prepared').idempotencyKey) = none := by
    refine find?_eq_none.mpr fun x hx => ?_
    have hUnused := hMade.unused x hx
    rw [← hSame.tenantId, ← hSame.aiUserId, ← hSame.idempotencyKey] at hUnused
    simpa [and_assoc, CommandCall.submission, scopeOf] using hUnused
  rw [hNone, Option.none_or, singleton_append, find?_cons_of_pos]
  obtain ⟨hTenant, hActor, hKey⟩ := hMade.key
  simp [CommandCall.submission, scopeOf, hTenant, hActor, hKey, hSame.tenantId, hSame.aiUserId,
    hSame.idempotencyKey]

theorem replay_iff {sub : Submission} (hPrint : e.requestFingerprint = sub.requestFingerprint) :
    replay sub task e = .ok result ↔
      eventVisible sub.scope (sub.clock.reading 3) task e = true ∧ result = ⟨e, true⟩ := by
  unfold replay
  rw [if_neg (not_not.mpr hPrint)]
  split
  · rename_i hVisible
    simp [hVisible, eq_comm]
  · rename_i hHidden
    simp [hHidden]

/-- **The answer to a key that was used.** -/
theorem commandTransaction_replayed {out : MutationResult × World}
    (hTask : w.tasks call.workObjectId = some task)
    (hPrior : priorEvent (call.submission env prepared) task = some e)
    (hPrint : e.requestFingerprint = env.commandFingerprint call.command) :
    commandTransaction env call prepared w = .ok out ↔
      Answerable (call.submission env prepared) task e ∧ out = (⟨e, true⟩, w) := by
  have hStored : w.tasks (call.submission env prepared).workObjectId = some task := hTask
  unfold commandTransaction World.command
  rw [hStored]
  simp only [Script.run_bind_ok, commandTask, Script.run_ofExcept]
  constructor
  · rintro ⟨done, ⟨loaded, hLoad, ⟨⟩, hFresh, hRest⟩, hOut⟩
    obtain rfl := Option.some.inj (loadManualRoot_ok.mp hLoad).1
    rw [hPrior] at hRest
    obtain ⟨result, hReplay, hDone⟩ := Script.run_bind_ok.mp hRest
    rw [Script.run_ofExcept, replay_iff hPrint] at hReplay
    obtain ⟨hVisible, rfl⟩ := hReplay
    cases hDone
    refine ⟨⟨hLoad, hFresh, hVisible⟩, ?_⟩
    rw [← Except.ok.inj hOut, World.put_self hStored]
  · rintro ⟨⟨hLoad, hFresh, hVisible⟩, rfl⟩
    refine ⟨(⟨e, true⟩, task, w.files), ⟨task, hLoad, (), hFresh, ?_⟩, ?_⟩
    · rw [hPrior]
      refine Script.run_bind_ok.mpr ⟨⟨e, true⟩, ?_, rfl⟩
      rw [Script.run_ofExcept, replay_iff hPrint]
      exact ⟨hVisible, rfl⟩
    · rw [World.put_self hStored]
      rfl

/-- **A request that was carried out is never carried out again**, wherever in
the history it is repeated. -/
theorem Commits.replayed (hRun : Run Legacy (WorldStep env calls) (w₂ :: t₂)) (hMem : w' ∈ w₂ :: t₂)
    (hCommit : Commits env call prepared w e w') (hSame : SameRequest call again) :
    ∃ task, w₂.tasks call.workObjectId = some task ∧
      ∀ out, commandTransaction env again prepared' w₂ = .ok out ↔
        Answerable (again.submission env prepared') task e ∧ out = (⟨e, true⟩, w₂) := by
  obtain ⟨task, task', -, hNew, hMade⟩ := hCommit.task
  obtain ⟨later, hLater, hStable⟩ := history_stable hRun suffix_rfl hMem _ task' hNew
  refine ⟨later, hLater, fun out => ?_⟩
  refine commandTransaction_replayed (hSame.workObjectId ▸ hLater)
    (hMade.prior hSame hStable.events) ?_
  rw [hSame.command]
  exact hMade.fingerprint

theorem commandTransaction_same
    (hTx : commandTransaction env call prepared w = .ok (⟨e, true⟩, w')) :
    w' = w := by
  obtain ⟨task, _, _, hTask, hCase, hResult, rfl⟩ := commandTransaction_ok hTx
  cases hCase with
  | replayed => exact World.put_self hTask
  | mutated => cases hResult

/-! ## Whole histories -/

/-- A state of the history `h` that is not earlier than the last one of `past`. -/
def Since (h past : List World) (w : World) : Prop :=
  ∃ t, past <:+ w :: t ∧ w :: t <:+ h

/-- **Commands on a task serialise.** In every history of the service:

1. a command that is carried out makes the next version of its task and appends
   one event, which carries that version;
2. at most one step of the history carries out a command with a given entity
   tag on a task;
3. the same request under the same key, with its actions anywhere later in the
   history, changes nothing, and it is answered with that event or refused;
4. it is answered exactly when it passes the checks that the service makes anew
   (`CommandCall.reaches`), the actor may still see the task and the event
   (`Answerable`), and the database acknowledges the transaction;
5. a request that fails, or that is answered from the history, has changed
   nothing on its way, unless its command was carried out as a whole and only the
   answer to the commit was lost. -/
theorem commands_serialise {ps : Procs World DispatchError} (hRun : ServiceRun env calls h ps)
    (hDigest : ∀ a b, env.viewDigest a = env.viewDigest b → a.version = b.version) :
    (∀ w w' t, w' :: w :: t <:+ h → ∀ call prepared e, Commits env call prepared w e w' →
      ∃ task task', w.tasks call.workObjectId = some task ∧
        w'.tasks call.workObjectId = some task' ∧
        task'.root.version = task.root.version + 1 ∧ task'.events = task.events ++ [e] ∧
        e.resultVersion = task'.root.version) ∧
    (∀ w₁ w₁' t₁ w₂ w₂' t₂, w₁' :: w₁ :: t₁ <:+ h → w₂' :: w₂ :: t₂ <:+ h →
      ∀ call₁ prepared₁ e₁ call₂ prepared₂ e₂, Commits env call₁ prepared₁ w₁ e₁ w₁' →
        Commits env call₂ prepared₂ w₂ e₂ w₂' → call₁.workObjectId = call₂.workObjectId →
        call₁.ifMatch = call₂.ifMatch → w₁' :: w₁ :: t₁ = w₂' :: w₂ :: t₂ ∧ e₁ = e₂) ∧
    (∀ w w' t call prepared e again ack, Commits env call prepared w e w' →
      SameRequest call again →
      (∀ steps r, (commandLifecycleForPrincipal env again ack).Ends steps r →
        (∀ s ∈ steps, Since h (w' :: w :: t) s.1) →
        Prog.Still steps ∧ (r = .ok ⟨e, true⟩ ∨ ∃ code, r = .error code)) ∧
      ∀ w₁ w₂ w₃, Since h (w' :: w :: t) w₃ →
        ((commandLifecycleForPrincipal env again ack).Ends [(w₁, w₁), (w₂, w₂), (w₃, w₃)]
            (.ok ⟨e, true⟩) ↔
          ack = .delivered ∧ ∃ prepared' task, again.reaches env w₁ w₂ = .ok prepared' ∧
            w₃.tasks call.workObjectId = some task ∧
            Answerable (again.submission env prepared') task e)) ∧
    ∀ call ack steps r, (commandLifecycleForPrincipal env call ack).Ends steps r →
      (∀ e, r ≠ .ok ⟨e, false⟩) → Prog.Still steps ∨
        ack = .lost ∧ r = .error .workObjectLifecycleFailed ∧ ∃ w₁ w₂ w₃ prepared e w',
          steps = [(w₁, w₁), (w₂, w₂), (w₃, w')] ∧ Commits env call prepared w₃ e w' := by
  have hSteps := hRun.steps
  refine ⟨fun w w' t _ call prepared e hCommit => ?_, ?_, ?_, fun call ack steps r hEnds hNot => ?_⟩
  · obtain ⟨task, task', hOld, hNew, hMade⟩ := hCommit.task
    exact ⟨task, task', hOld, hNew, hMade.version, hMade.events, hMade.carries⟩
  · intro w₁ w₁' t₁ w₂ w₂' t₂ hSuf₁ hSuf₂ call₁ prepared₁ e₁ call₂ prepared₂ e₂ hFirst hSecond hId
      hTag
    have hEq := commit_unique hDigest hFirst hSecond hId hTag hSteps hSuf₁ hSuf₂
    refine ⟨hEq, ?_⟩
    -- Both events are the one that this step appended.
    obtain ⟨rfl, rfl, -⟩ : w₁' = w₂' ∧ w₁ = w₂ ∧ t₁ = t₂ := by simpa using hEq
    obtain ⟨old₁, new₁, hOld₁, hNew₁, hMade₁⟩ := hFirst.task
    obtain ⟨old₂, new₂, hOld₂, hNew₂, hMade₂⟩ := hSecond.task
    rw [← hId] at hOld₂ hNew₂
    obtain rfl := Option.some.inj (hOld₁.symm.trans hOld₂)
    obtain rfl := Option.some.inj (hNew₁.symm.trans hNew₂)
    simpa using hMade₁.events.symm.trans hMade₂.events
  · intro w w' t call prepared e again ack hCommit hSame
    -- wherever the repeated transaction takes place, it can only find the event
    have hReplay : ∀ {w₃ : World} (prepared' : Prepared), Since h (w' :: w :: t) w₃ →
        ∃ task, w₃.tasks call.workObjectId = some task ∧
          ∀ out, commandTransaction env again prepared' w₃ = .ok out ↔
            Answerable (again.submission env prepared') task e ∧ out = (⟨e, true⟩, w₃) := by
      rintro w₃ prepared' ⟨t₃, hSuf, hEnd⟩
      exact hCommit.replayed (hSteps.of_suffix hEnd) (hSuf.subset mem_cons_self) hSame
    refine ⟨fun steps r hEnds hLater => ?_, fun w₁ w₂ w₃ hLater => ⟨fun hEnds => ?_, ?_⟩⟩
    · obtain ⟨hError, hStill⟩ | ⟨w₁, w₂, w₃, prepared', result, x, rfl, -, hTx, hAnswer⟩ :=
        commandLifecycle_ends hEnds
      · exact ⟨hStill, .inr hError⟩
      obtain ⟨task, -, hOnly⟩ := hReplay prepared' (hLater (w₃, x) (by simp))
      obtain ⟨-, hOut⟩ := (hOnly _).mp hTx
      obtain ⟨rfl, rfl⟩ := Prod.mk.inj hOut
      refine ⟨Prog.still_nil.cons.cons.cons, ?_⟩
      exact hAnswer.imp And.right fun hLost => ⟨_, hLost.2⟩
    · obtain ⟨⟨code, hError⟩, -⟩ | ⟨_, _, _, prepared', result, _, hStates, hReach, hTx, hAnswer⟩ :=
        commandLifecycle_ends hEnds
      · cases hError
      cases hStates
      obtain ⟨hAck, -⟩ | ⟨-, hError⟩ := hAnswer
      · obtain ⟨task, hTask, hOnly⟩ := hReplay prepared' hLater
        exact ⟨hAck, prepared', task, hReach, hTask, ((hOnly _).mp hTx).1⟩
      · cases hError
    · rintro ⟨rfl, prepared', task, hReach, hTask, hAnswer⟩
      obtain ⟨task', hTask', hOnly⟩ := hReplay prepared' hLater
      obtain rfl := Option.some.inj (hTask.symm.trans hTask')
      exact commandLifecycle_answers hReach ((hOnly _).mpr ⟨hAnswer, rfl⟩)
  · obtain ⟨-, hStill⟩ | ⟨w₁, w₂, w₃, prepared, ⟨e, replayed⟩, w', rfl, -, hTx, hAnswer⟩ :=
      commandLifecycle_ends hEnds
    · exact .inl hStill
    cases replayed with
    | true =>
      obtain rfl := commandTransaction_same hTx
      exact .inl Prog.still_nil.cons.cons.cons
    | false =>
      -- carried out: the caller knows, or the answer to the commit was lost
      obtain ⟨-, rfl⟩ | ⟨hLost, hError⟩ := hAnswer
      · exact absurd rfl (hNot e)
      · exact .inr ⟨hLost, hError, w₁, w₂, w₃, prepared, e, w', rfl, hTx⟩

/-! ## Sample histories -/

theorem command_after (hReach : call.reaches env w w = .ok prepared) :
    ((ClientCall.command call).program env .delivered).after (w :: t) =
      Prog.committed (commandTransaction env call prepared) w :: w :: w :: w :: t := by
  obtain ⟨member, hMember, task, hLoad, hPrep, existing, hExist, hAudit, hFresh⟩ :=
    reaches_ok.mp hReach
  simp only [ClientCall.program, Prog.discard, commandLifecycleForPrincipal, hMember,
    Prog.ofExcept, Prog.read, Prog.bind_ret, Prog.bind_act, Prog.after, Prog.trail, id_eq, hLoad,
    hPrep, hExist, Prog.require, if_pos hAudit, hFresh, transaction, transact, Prog.atomic]
  cases hTx : commandTransaction env call prepared w with
  | ok out =>
    rw [show (w.command env (call.submission env prepared)).run checkRow _ = .ok out from hTx]
    rfl
  | error code =>
    rw [show (w.command env (call.submission env prepared)).run checkRow _ = .error code from hTx]
    rfl

namespace Sample

/-- A command that a client carries out at the end of a history, with what can
be computed of its event and the new state. -/
theorem commits (requests : List ClientCall) (call : CommandCall) {P : Event → World → Prop}
    (hLast : ∃ w ∈ (history requests).head?, ∃ prepared ∈ (call.reaches plainEnv w w).toOption,
      ∃ out ∈ (commandTransaction plainEnv call prepared w).toOption,
        out.1.replayed = false ∧ P out.1.event out.2) :
    ∃ w w' t prepared e, history (requests ++ [.command call]) = w' :: w :: t ∧
      history requests <:+ w :: t ∧ Commits plainEnv call prepared w e w' ∧ P e w' := by
  obtain ⟨w, t, hEq, prepared, hReach, ⟨⟨e, replayed⟩, w'⟩, hTx, rfl, hP⟩ := head_spec hLast
  rw [mem_toOption] at hReach hTx
  refine ⟨w, w', w :: w :: t, prepared, e, ?_, ?_, hTx, hP⟩
  · rw [history, map_append, Turn.inTurn, foldl_append]
    show ((ClientCall.command call).program plainEnv .delivered).after (history requests) = _
    rw [hEq, command_after hReach, Prog.committed_ok hTx]
  · rw [hEq]
    exact (suffix_cons _ _).trans (suffix_cons _ _)

theorem plainEnv_digest (a b : LifecycleView)
    (hSame : plainEnv.viewDigest a = plainEnv.viewDigest b) : a.version = b.version := by
  have hLists := congrArg String.toList hSame
  simpa [plainEnv] using congrArg List.length hLists

/-- The head assigns the department's relation to the worker, or takes the task
over. -/
def assignment : CommandCall := commandCall head 1 (.assign 1 (ident 'u'))

def takeover : CommandCall := commandCall head 2 (.assign 2 (ident 'h'))

end Sample

open Sample

/-- The assignment of the sample history, requested once more, is answered with
its event. -/
theorem commands_serialise_sample :
    ∃ w' e, w' ∈ history [dispatch, .command assignment] ∧ e.resultVersion = 2 ∧
      (commandLifecycleForPrincipal plainEnv assignment .delivered).Ends
        [(w', w'), (w', w'), (w', w')] (.ok ⟨e, true⟩) := by
  obtain ⟨w, w', t, prepared, e, hEq, -, hCommit, hVersion, again, hReach, task, hTask, hAnswer⟩ :=
    commits [dispatch] assignment (P := fun e w' => e.resultVersion = 2 ∧
      ∃ prepared ∈ (assignment.reaches plainEnv w' w').toOption, ∃ task ∈ w'.tasks ['t'],
        Answerable (assignment.submission plainEnv prepared) task e) (by decide +kernel)
  obtain ⟨ps, hRun⟩ := history_run ([dispatch] ++ [.command assignment])
  obtain ⟨-, -, hReplay, -⟩ := commands_serialise hRun plainEnv_digest
  rw [hEq] at hReplay
  refine ⟨w', e, ?_, hVersion, ?_⟩
  · exact (show history [dispatch, .command assignment] = w' :: w :: t from hEq) ▸ mem_cons_self
  · refine ((hReplay w w' t assignment prepared e assignment .delivered hCommit
      ⟨rfl, rfl, rfl, rfl, rfl⟩).2 w' w' w' ⟨_, suffix_rfl, suffix_rfl⟩).mpr ?_
    exact ⟨rfl, again, task, mem_toOption.mp hReach, hTask, hAnswer⟩

/-- **A resubmission may be refused.** The head assigns the task to the worker
and then takes it over. The first assignment, requested once more under its
key, is not answered with its event: the relation it made is superseded, and
with it the head's access to its history. -/
theorem resubmitted_assignment_refused :
    ¬ ∀ (env : Env) (calls : ClientCall → Prop) (h : List World) (ps : Procs World DispatchError),
      ServiceRun env calls h ps →
      (∀ a b, env.viewDigest a = env.viewDigest b → a.version = b.version) →
      ∀ w w' t w₂ t₂, w' :: w :: t <:+ w₂ :: t₂ → w₂ :: t₂ <:+ h → ∀ call prepared e,
        Commits env call prepared w e w' →
        (commandLifecycleForPrincipal env call .delivered).run w₂ = (.ok ⟨e, true⟩, w₂) := by
  intro hClaim
  obtain ⟨w, w', t, prepared, e, hEq, -, hCommit, -⟩ := commits [dispatch]
    assignment (P := fun _ _ => True) (by decide +kernel)
  obtain ⟨w₁, w₂, t₂, _, _, hEq₂, hSuf, -, hRefused⟩ :=
    commits ([dispatch] ++ [.command assignment]) takeover
      (P := fun _ w₂ => ((commandLifecycleForPrincipal plainEnv assignment .delivered).run w₂).1 =
        .error .workObjectActionForbidden) (by decide +kernel)
  obtain ⟨ps, hRun⟩ := history_run (([dispatch] ++ [.command assignment]) ++ [.command takeover])
  rw [hEq₂] at hRun
  rw [hEq] at hSuf
  have hAnswer := hClaim _ _ _ _ hRun plainEnv_digest w w' t w₂ (w₁ :: t₂)
    (hSuf.trans (suffix_cons _ _)) suffix_rfl _ prepared e hCommit
  rw [hAnswer] at hRefused
  cases hRefused

end EternalAI.Dispatch
