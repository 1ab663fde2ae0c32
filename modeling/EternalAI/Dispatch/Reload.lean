import EternalAI.Dispatch.Lifecycle

/-!
# Dispatched tasks — every stored row reloads

Each read of a task runs the validator of its record again. The constraints of
the database leave only the normalisation of the texts to the application
(`Root.reloads_iff`), and of all requests only a revision brings texts that
were trimmed by the other set of characters.

* `stored_rows_reload` — as long as no revision has U+FEFF at the end of a
  text, everything that is stored can be read and listed.
* `revision_breaks_list` — a revision with U+FEFF at the end of its title is
  accepted, and no list that contains the task can be read afterwards.
-/

namespace EternalAI.Dispatch

open Lib List

variable {env : Env} {calls : ClientCall → Prop} {h : List World} {w : World}
  {ps : Procs World DispatchError} {sub : Submission} {task : Task} {files : List Attachment}
  {loaded : Loaded} {outcome : Outcome}

/-- A revision without U+FEFF at either end of a text. -/
def LifecycleCommand.Clean : LifecycleCommand → Prop
  | .revise title requirement receiptRequirement _ =>
    EndsOutside [byteOrderMark] title.val ∧ EndsOutside [byteOrderMark] requirement.val ∧
      EndsOutside [byteOrderMark] receiptRequirement.val
  | _ => True

def Root.texts (root : Root) : Str × Str × Str :=
  (root.title, root.requirement, root.receiptRequirement)

theorem Root.Normalised.congr {a b : Root} (hTexts : a.texts = b.texts) (ha : a.Normalised) :
    b.Normalised := by
  obtain ⟨hTitle, hRest⟩ := Prod.mk.inj hTexts
  obtain ⟨hReq, hReceipt⟩ := Prod.mk.inj hRest
  unfold Root.Normalised at ha ⊢
  rwa [← hTitle, ← hReq, ← hReceipt]

theorem textNormalised_of_clean {lo hi : Nat} (text : CommandText lo hi)
    (hClean : EndsOutside [byteOrderMark] text.val) : textNormalised text.val = true := by
  unfold textNormalised
  rw [(searchStripped_iff text.stripped).mpr hClean]
  exact beq_self_eq_true _

theorem handle_texts {relation : Option Relation}
    (hOk : (handle sub loaded relation files).result = .ok outcome) :
    (outcome.finalRoot sub loaded.root).texts = loaded.root.texts ∨
      ∃ title requirement receiptRequirement mode,
        sub.command = .revise title requirement receiptRequirement mode ∧
        (outcome.finalRoot sub loaded.root).texts =
          (title.val, requirement.val, receiptRequirement.val) := by
  cases relation with
  | some r =>
    obtain ⟨table, reopened, status, files', -, -, -, rfl, -⟩ := handleRelation_ok hOk
    refine .inl ?_
    unfold Submission.acceptRoot
    split
    · split <;> rfl
    · rfl
  | none =>
    have hHandled := handleRoot_cases hOk
    generalize (handleRoot sub loaded files).rows = rows at hHandled
    cases hHandled with
    | revised hCmd => exact .inr ⟨_, _, _, _, hCmd, rfl⟩
    | _ => exact .inl rfl

theorem commandTask_normalised {failed : DispatchError}
    {out : MutationResult × Task × List Attachment} (hNorm : task.root.Normalised)
    (hClean : sub.command.Clean)
    (hRun : (commandTask env sub (some task) files).run checkRow failed = .ok out) :
    out.2.1.root.Normalised := by
  obtain ⟨_, _, ⟨⟩, hCase, -⟩ := commandTask_ok hRun
  cases hCase with
  | replayed => exact hNorm
  | @mutated loaded _ _ _ _ hMut =>
    have hLoaded : loaded.root.Normalised := by
      rcases prepare_root hMut.prepared with hSame | ⟨-, hConv⟩
      · rw [hSame]
        exact hNorm
      · rw [hConv]
        exact hNorm
    rcases handle_texts hMut.handled with hTexts | ⟨title, req, receipt, mode, hCmd, hTexts⟩
    · exact hLoaded.congr hTexts.symm
    · rw [hCmd] at hClean
      obtain ⟨hTitle, hReq, hReceipt⟩ := hClean
      obtain ⟨hTitle', hRest⟩ := Prod.mk.inj hTexts
      obtain ⟨hReq', hReceipt'⟩ := Prod.mk.inj hRest
      refine ⟨?_, ?_, ?_⟩
      · exact hTitle' ▸ textNormalised_of_clean title hTitle
      · exact hReq' ▸ textNormalised_of_clean req hReq
      · exact hReceipt' ▸ textNormalised_of_clean receipt hReceipt

variable {stored : Option Task}

theorem TaskChange.normalised {id : Str} {task' : Task}
    (hClean : ∀ call, calls (.command call) → call.command.Clean)
    (hOld : ∀ task, stored = some task → task.root.Normalised)
    (hChange : TaskChange env calls h id stored (some task')) : task'.root.Normalised := by
  cases hChange with
  | same => exact hOld task' rfl
  | created hCall hMem hReloads hId hRoot _ _ => exact (Root.reloads_iff hRoot).mp hReloads
  | remarked =>
    rename_i task remark history
    exact hOld task rfl
  | touched hOpen hCheck =>
    rename_i task now
    exact hOld task rfl
  | commanded hCall hId hPrep hRun =>
    exact commandTask_normalised (hOld _ rfl) (hClean _ hCall) hRun

theorem listForScope_ok (scope : Scope) (now : Tick) (selected : Root → Bool)
    (hAll : ∀ id task, w.tasks id = some task → task.root.Reloads) (ids : List Str) :
    ∃ roots, listForScope scope now selected w ids = .ok roots := by
  induction ids with
  | nil => exact ⟨[], rfl⟩
  | cons id ids ih =>
    obtain ⟨roots, hRoots⟩ := ih
    unfold listForScope
    cases hTask : w.tasks id with
    | none => exact ⟨roots, hRoots⟩
    | some task =>
      by_cases hSel : (rootVisible scope now task && selected task.root) = true
      · have hVal : task.root.validateDispatch = .ok () := hAll id task hTask
        exact ⟨task.root :: roots, by simp only [hSel, if_true, hVal, hRoots]⟩
      · exact ⟨roots, by simp only [hSel, hRoots]; rfl⟩

/-- A load is refused by the validator only for a row that does not reload. -/
theorem loadManualRoot_not_invalid {scope : Scope} {now : Tick}
    (hAll : ∀ task, stored = some task → task.root.Reloads) (message : String) :
    loadManualRoot scope now stored ≠ .error (.validationError message) := by
  intro hErr
  unfold loadManualRoot at hErr
  cases stored with
  | none => cases hErr
  | some task =>
    have hVal : task.root.validateDispatch = .ok () := hAll task rfl
    simp only [hVal] at hErr
    split at hErr <;> cases hErr

/--
**Everything stored can be read.** In every interleaving of dispatches,
lifecycle commands, remarks and changes of attachments in which no revision has
U+FEFF at an end of a text, every stored row reloads as a valid record; so no
load is refused by the validator, and every list can be read.
-/
theorem stored_rows_reload (hClean : ∀ call, calls (.command call) → call.command.Clean)
    (hRun : ServiceRun env calls h ps) :
    ∀ w ∈ h, (∀ id task, w.tasks id = some task → task.root.Reloads) ∧
      (∀ scope now id message,
        loadManualRoot scope now (w.tasks id) ≠ .error (.validationError message)) ∧
      ∀ scope now selected ids, ∃ roots, listForScope scope now selected w ids = .ok roots := by
  intro w hw
  have hSteps := hRun.steps
  have hNorm : ∀ w ∈ h, ∀ id task, w.tasks id = some task → task.root.Normalised := by
    refine hSteps.mem_inv
      (fun w hInit id task hTask => ?_) fun w t w' hOld hStep id task' hTask' => ?_
    · obtain ⟨-, -, hCheck, hReloads, -⟩ := hInit id task hTask
      exact (Root.reloads_iff hCheck).mp hReloads
    · have hChange := hStep.change id
      rw [hTask'] at hChange
      exact hChange.normalised hClean (hOld id)
  have hAll : ∀ id task, w.tasks id = some task → task.root.Reloads := fun id task hTask =>
    (Root.reloads_iff (history_mem_sound hSteps hw id task hTask).2.checked).mpr
      (hNorm w hw id task hTask)
  exact ⟨hAll, fun scope now id => loadManualRoot_not_invalid (hAll id),
    fun scope now selected => listForScope_ok scope now selected hAll⟩

namespace Sample

/-- A revision whose title is `title`. -/
def revision (title : CommandText 1 200) : ClientCall :=
  command head 1 (.revise title (blank _ _) (blank _ _) .submitCompletes)

def revised : List ClientCall := [dispatch, revision ⟨['b'], by decide, by decide⟩]

end Sample

open Sample

/-- The sample task reloads after it was given another title. -/
theorem stored_rows_reload_sample :
    ∃ w ∈ history revised, ∃ task, w.tasks ['t'] = some task ∧
      task.root.title = ['b'] ∧ task.root.Reloads := by
  obtain ⟨w, hw, task, hTask, hTitle⟩ := stored_mem revised
    (P := fun task => task.root.title = ['b']) (by decide +kernel)
  obtain ⟨ps, hRun⟩ := served_run revised (fun _ hCall => hCall)
  have hClean : ∀ call, .command call ∈ revised → call.command.Clean := by
    intro call hCall
    simp only [revised, dispatch, revision, command, mem_cons,
      not_mem_nil, or_false, reduceCtorEq, ClientCall.command.injEq, false_or] at hCall
    rw [hCall]
    show EndsOutside _ _ ∧ EndsOutside _ _ ∧ EndsOutside _ _
    decide
  exact ⟨w, hw, task, hTask, hTitle, (stored_rows_reload hClean hRun w hw).1 _ task hTask⟩

/-- **A revision that breaks every list.** The title U+FEFF `a` is trimmed by
`str.strip()`, which leaves it alone, and stored; the validator then refuses
the row. -/
theorem revision_breaks_list :
    ¬ ∀ (env : Env) (calls : ClientCall → Prop) (h : List World) (ps : Procs World DispatchError),
      ServiceRun env calls h ps → ∀ w ∈ h, ∀ scope now selected ids,
        ∃ roots, listForScope scope now selected w ids = .ok roots := by
  intro hClaim
  let requests := [dispatch, revision ⟨[byteOrderMark, 'a'], by decide +kernel, by decide⟩]
  let scope := scopeOf head (some directory)
  obtain ⟨w, hw, hErr⟩ : ∃ w ∈ history requests,
      (listForScope scope 0 (fun _ => true) w [['t']]).isOk = false := by decide +kernel
  obtain ⟨ps, hRun⟩ := history_run requests
  obtain ⟨roots, hOk⟩ := hClaim _ _ _ ps hRun w hw scope 0 (fun _ => true) [['t']]
  rw [hOk] at hErr
  cases hErr

end EternalAI.Dispatch
