import EternalAI.Requests.Steps

/-!
# Canonical requests — one winner, one run, one way out

A canonical request is claimed by the process that inserts its row, and nobody else is
ever told to parse it. The row leaves `created` once: it is accepted while its claim is
alive, or it fails and stays so.

* `Sound` — the rows, runs and answers of a reachable world.
* `Later` — what a later world keeps of an earlier one.
* `departures` — how often a task has left `created`.
* `request_claimed_once` — the whole, for every interleaving.

The keyed hash is taken to tell different texts apart.
-/

namespace EternalAI.Requests

open Lib List
open Dispatch (Str Time)
open Leases (Bytes Owner)
open Runs (TaskStatus Run Admission)

variable {mac : Bytes → Bytes → Bytes} {w w' : World} {h : List World}

/-! ## Reachable worlds -/

def Told.winner (a : Told) : Bool := a.request.parseWinner

structure Sound (mac : Bytes → Bytes → Bytes) (w : World) : Prop where
  ids : (w.db.tasks.map TaskRow.taskId).Nodup
  requests : (w.db.tasks.map TaskRow.request).Nodup
  runs : (w.db.runs.map taskOf).Nodup
  begun : ∀ run ∈ w.db.runs, ∃ row ∈ w.db.tasks, row.key = taskOf run ∧ row.status ≠ .created
  told : ∀ a ∈ w.told, ∃ row ∈ w.db.tasks, row.request = a.key ∧ row.MadeWith mac a.input
  winners : ((w.told.filter Told.winner).map Told.key).Nodup

theorem blank_sound (hBlank : Blank w) : Sound mac w := by
  obtain ⟨hTasks, hRuns, hTold⟩ := hBlank
  constructor <;> simp [hTasks, hRuns, hTold]

variable {s s' : State} {row row' : TaskRow}

theorem RowStep.left (hStep : RowStep s s' row row') (hLeft : row.status ≠ .created) :
    row'.status ≠ .created := by
  cases hStep with
  | stays => exact hLeft
  | fails _ hCreated | starts hCreated => exact absurd hCreated hLeft
  | works status errorCode _ hStatus => exact hStatus

variable {β : Type} {g : TaskRow → TaskRow} {fresh : List TaskRow} {f : TaskRow → β}

section

variable (hf : ∀ row row' : TaskRow, row'.made = row.made → f row' = f row)
  (hRows : ∀ row ∈ w.db.tasks, RowStep w.db w'.db row (g row))
  (hTasks : w'.db.tasks = w.db.tasks.map g ++ fresh)

include hf hRows hTasks

/-- What the fixed columns of the rows say is kept; new rows are added at the end. -/
theorem map_rows : w'.db.tasks.map f = w.db.tasks.map f ++ fresh.map f := by
  rw [hTasks, map_append, map_map]
  congr 1
  exact map_congr_left fun row hRow => hf _ _ (hRows row hRow).made

/-- A column stays without repetitions when the new row has a value of its own. -/
theorem nodup_rows (hTells : Tells mac w w' fresh)
    (hOwn : ∀ row ∈ fresh, (∀ t ∈ w.db.tasks, t.taskId ≠ row.taskId ∧ t.request ≠ row.request) →
      ∀ t ∈ w.db.tasks, f t ≠ f row) (hNodup : (w.db.tasks.map f).Nodup) :
    (w'.db.tasks.map f).Nodup := by
  rw [map_rows hf hRows hTasks, ← map_append]
  cases hTells with
  | nothing | again => rwa [append_nil]
  | won _ _ hFresh =>
    exact nodup_map_append_new hNodup (hOwn _ (mem_singleton_self _) hFresh)

end

theorem evolves_runs_nodup (hNodup : (w.db.runs.map taskOf).Nodup)
    (hRuns : RunsStep w.db w'.db) : (w'.db.runs.map taskOf).Nodup := by
  cases hRuns with
  | kept hSame =>
    -- the task of a run is a part of its admission, and no run gets another one
    have hOf : ∀ rs : List Run, rs.map taskOf =
        (rs.map Run.admission).map fun a => (a.owner, a.taskId) := by
      intro rs
      rw [map_map]
      rfl
    rw [hOf, hSame, ← hOf]
    exact hNodup
  | added _ hTask hUnrun _ hAdded =>
    rw [hAdded]
    exact nodup_map_append_new hNodup fun r hr hSame => hUnrun r hr (hSame.trans hTask)

variable {run : Run}

theorem RunsStep.back (hRuns : RunsStep s s') (hRun : run ∈ s'.runs) :
    (∃ r ∈ s.runs, r.admission = run.admission) ∨
      ∃ row ∈ s.tasks, taskOf run = row.key ∧ s.Unrun row ∧ row.running ∈ s'.tasks := by
  cases hRuns with
  | kept hSame =>
    have hMem : run.admission ∈ s.runs.map Run.admission := hSame ▸ mem_map_of_mem hRun
    exact .inl (mem_map.mp hMem)
  | added hRow hTask hUnrun hRunning hAdded =>
    rw [hAdded, mem_append, mem_singleton] at hRun
    rcases hRun with hRun | rfl
    · exact .inl ⟨run, hRun, rfl⟩
    · exact .inr ⟨_, hRow, hTask, hUnrun, hRunning⟩

theorem evolves_sound (hSound : Sound mac w) (hStep : Evolves mac w w') : Sound mac w' := by
  obtain ⟨g, fresh, hRows, hTasks, hTells⟩ := hStep.rows
  have hThere : ∀ row ∈ w.db.tasks, g row ∈ w'.db.tasks := by
    intro row hRow
    rw [hTasks]
    exact mem_append_left _ (mem_map_of_mem hRow)
  -- What was told before still has its row: rows change, but not how they were made.
  have hOld : ∀ a ∈ w.told,
      ∃ row ∈ w'.db.tasks, row.request = a.key ∧ row.MadeWith mac a.input := by
    intro a ha
    obtain ⟨row, hRow, hKey, hWith⟩ := hSound.told a ha
    have hMade := (hRows row hRow).made
    exact ⟨g row, hThere row hRow, (TaskRow.request_of_made hMade).trans hKey, hWith.of_made hMade⟩
  constructor
  case ids =>
    exact nodup_rows (fun _ _ => TaskRow.taskId_of_made) hRows hTasks hTells
      (fun _ _ hFresh t ht => (hFresh t ht).1) hSound.ids
  case requests =>
    exact nodup_rows (fun _ _ => TaskRow.request_of_made) hRows hTasks hTells
      (fun _ _ hFresh t ht => (hFresh t ht).2) hSound.requests
  case runs => exact evolves_runs_nodup hSound.runs hStep.runs
  case begun =>
    intro run hRun
    -- A new run comes with the row that has just begun to run.
    rcases hStep.runs.back hRun with ⟨r, hr, hSame⟩ | ⟨row, -, hTask, -, hRunning⟩
    · obtain ⟨row, hRow, hKey, hLeft⟩ := hSound.begun r hr
      refine ⟨g row, hThere row hRow, ?_, (hRows row hRow).left hLeft⟩
      rw [TaskRow.key_of_made (hRows row hRow).made, hKey, taskOf, taskOf, hSame]
    · exact ⟨row.running, hRunning, hTask.symm, by simp [TaskRow.running]⟩
  case told =>
    intro a ha
    cases hTells with
    | nothing hTold => exact hOld a (hTold ▸ ha)
    | @again row b hRow hWith hKey _ _ hTold =>
      rw [hTold] at ha
      rcases mem_cons.mp ha with rfl | ha
      · have hMade := (hRows row hRow).made
        exact ⟨g row, hThere row hRow, (TaskRow.request_of_made hMade).trans hKey.symm,
          hWith.of_made hMade⟩
      · exact hOld a ha
    | @won row b _ hWith _ hKey _ hTold =>
      rw [hTold] at ha
      rcases mem_cons.mp ha with rfl | ha
      · refine ⟨row, ?_, hKey.symm, hWith⟩
        rw [hTasks]
        exact mem_append_right _ (mem_singleton_self row)
      · exact hOld a ha
  case winners =>
    cases hTells with
    | nothing hTold =>
      rw [hTold]
      exact hSound.winners
    | again _ _ _ _ hLoser hTold =>
      rw [hTold, filter_cons_of_neg (by simp [Told.winner, hLoser])]
      exact hSound.winners
    | @won row b _ _ hFresh hKey _ hTold =>
      rw [hTold, filter_cons]
      split
      · -- whoever has won before has won another request
        rw [map_cons, nodup_cons]
        refine ⟨fun hMem => ?_, hSound.winners⟩
        obtain ⟨a, ha, hSame⟩ := mem_map.mp hMem
        obtain ⟨t, ht, hRequest, -⟩ := hSound.told a (mem_of_mem_filter ha)
        exact (hFresh t ht).2 (hRequest.trans (hSame.trans hKey))
      · exact hSound.winners

/-! ## Histories -/

/-- The row will not be accepted any more: it has no run, and its claim has failed or
has expired. -/
def State.Over (s : State) (row : TaskRow) : Prop :=
  s.Unrun row ∧ (row.status = .failed ∨ row.status = .created ∧ row.expired s.clock)

theorem RowStep.over (hStep : RowStep s s' row row') (hClock : s.clock ≤ s'.clock)
    (hOver : s.Over row) : s'.Over row' ∧ (row' = row ∨ row'.status = .failed) := by
  obtain ⟨hUnrun, hEnd⟩ := hOver
  cases hStep with
  | stays hFree =>
    refine ⟨⟨hFree hUnrun, hEnd.imp_right fun hExpired => ⟨hExpired.1, fun d hd => ?_⟩⟩, .inl rfl⟩
    exact le_trans (hExpired.2 d hd) hClock
  | fails errorCode _ hRuns =>
    refine ⟨⟨?_, .inl rfl⟩, .inr rfl⟩
    unfold State.Unrun
    rw [hRuns]
    exact hUnrun
  | starts hCreated hAlive =>
    -- an acceptance looks at status and deadline under the lock of the row
    obtain ⟨d, hd, hLt⟩ := hAlive
    rcases hEnd with hFailed | ⟨-, hExpired⟩
    · rw [hFailed] at hCreated
      cases hCreated
    · exact absurd (hExpired d hd) (not_le.mpr hLt)
  | works _ _ hRun => exact absurd hUnrun hRun

structure Later (w w' : World) : Prop where
  rows : ∀ row ∈ w.db.tasks, ∃ row' ∈ w'.db.tasks, row'.made = row.made ∧
    (w.db.Over row → w'.db.Over row' ∧ (row' = row ∨ row'.status = .failed))
  runs : ∀ run ∈ w.db.runs, ∃ run' ∈ w'.db.runs, run'.admission = run.admission
  winners : ∀ a ∈ w'.told, a.winner → (∃ row ∈ w.db.tasks, row.request = a.key) → a ∈ w.told

theorem Later.refl (w : World) : Later w w where
  rows := fun row hRow => ⟨row, hRow, rfl, fun hOver => ⟨hOver, .inl rfl⟩⟩
  runs := fun run hRun => ⟨run, hRun, rfl⟩
  winners := fun _ ha _ _ => ha

theorem Later.trans {w'' : World} (h₁ : Later w w') (h₂ : Later w' w'') : Later w w'' where
  rows := by
    intro row hRow
    obtain ⟨row', hRow', hMade, hOver⟩ := h₁.rows row hRow
    obtain ⟨row'', hRow'', hMade', hOver'⟩ := h₂.rows row' hRow'
    refine ⟨row'', hRow'', hMade'.trans hMade, fun hStart => ?_⟩
    obtain ⟨hMid, hSame⟩ := hOver hStart
    obtain ⟨hEnd, hSame'⟩ := hOver' hMid
    refine ⟨hEnd, ?_⟩
    rcases hSame' with rfl | hFailed
    · exact hSame
    · exact .inr hFailed
  runs := by
    intro run hRun
    obtain ⟨run', hRun', hSame⟩ := h₁.runs run hRun
    obtain ⟨run'', hRun'', hSame'⟩ := h₂.runs run' hRun'
    exact ⟨run'', hRun'', hSame'.trans hSame⟩
  winners := by
    rintro a ha hWinner ⟨row, hRow, hKey⟩
    obtain ⟨row', hRow', hMade, -⟩ := h₁.rows row hRow
    have hMid := h₂.winners a ha hWinner ⟨row', hRow', (TaskRow.request_of_made hMade).trans hKey⟩
    exact h₁.winners a hMid hWinner ⟨row, hRow, hKey⟩

theorem evolves_later (hStep : Evolves mac w w') : Later w w' := by
  obtain ⟨g, fresh, hRows, hTasks, hTells⟩ := hStep.rows
  constructor
  case rows =>
    intro row hRow
    refine ⟨g row, ?_, (hRows row hRow).made, (hRows row hRow).over hStep.clock⟩
    rw [hTasks]
    exact mem_append_left _ (mem_map_of_mem hRow)
  case runs =>
    intro run hRun
    cases hStep.runs with
    | kept hSame =>
      have hMem : run.admission ∈ w'.db.runs.map Run.admission := hSame ▸ mem_map_of_mem hRun
      exact mem_map.mp hMem
    | added _ _ _ _ hAdded =>
      rw [hAdded]
      exact ⟨run, mem_append_left _ hRun, rfl⟩
  case winners =>
    rintro a ha hWinner ⟨row, hRow, hKey⟩
    cases hTells with
    | nothing hTold => exact hTold ▸ ha
    | again _ _ _ _ hLoser hTold =>
      rw [hTold] at ha
      rcases mem_cons.mp ha with rfl | ha
      · rw [Told.winner, hLoser] at hWinner
        cases hWinner
      · exact ha
    | won _ _ hFresh hOf _ hTold =>
      -- the new winner has a request that had no row
      rw [hTold] at ha
      rcases mem_cons.mp ha with rfl | ha
      · exact absurd (hKey.trans hOf) (hFresh row hRow).2
      · exact ha

variable {t : List World}

theorem run_kept (hRun : Lib.Run Blank (RequestStep mac) (w :: t)) :
    ∀ x ∈ w :: t, Sound mac x ∧ Later x w := by
  refine hRun.mem_inv_rel (fun _ => blank_sound) Later.refl Later.trans ?_
  intro x u y hPast hStep
  have hSound := (hPast x mem_cons_self).1
  have hEvolves := hStep hSound.ids
  exact ⟨evolves_sound hSound hEvolves, evolves_later hEvolves⟩

/-! ## Leaving `created` -/

/-- The task is there and is still `created`. -/
def World.waits (w : World) (key : Owner × Str) : Bool :=
  w.db.tasks.any fun row => row.key = key ∧ row.status = .created

/-- The task is there and is not `created`. -/
def World.left (w : World) (key : Owner × Str) : Bool :=
  w.db.tasks.any fun row => row.key = key ∧ row.status ≠ .created

/-- How often the task has left `created`. -/
def departures (key : Owner × Str) : List World → Nat
  | w' :: w :: t => (if w.waits key ∧ w'.left key then 1 else 0) + departures key (w :: t)
  | _ => 0

variable {key : Owner × Str}

theorem waits_iff :
    w.waits key = true ↔ ∃ row ∈ w.db.tasks, row.key = key ∧ row.status = .created := by
  simp [World.waits]

theorem left_iff :
    w.left key = true ↔ ∃ row ∈ w.db.tasks, row.key = key ∧ row.status ≠ .created := by
  simp [World.left]

theorem evolves_left_back (hStep : Evolves mac w w') (hLeft : w'.left key = true) :
    w.waits key = true ∨ w.left key = true := by
  obtain ⟨row', hRow', hKey, hStatus⟩ := left_iff.mp hLeft
  obtain ⟨g, fresh, hRows, hTasks, hTells⟩ := hStep.rows
  rw [hTasks, mem_append] at hRow'
  rcases hRow' with hOld | hNew
  · obtain ⟨row, hRow, rfl⟩ := mem_map.mp hOld
    have hSame : row.key = key := (TaskRow.key_of_made (hRows row hRow).made).symm.trans hKey
    by_cases hCreated : row.status = .created
    · exact .inl (waits_iff.mpr ⟨row, hRow, hSame, hCreated⟩)
    · exact .inr (left_iff.mpr ⟨row, hRow, hSame, hCreated⟩)
  · cases hTells with
    | nothing | again => cases hNew
    | won hCreated =>
      rw [mem_singleton.mp hNew] at hStatus
      exact absurd hCreated hStatus

theorem evolves_left (hStep : Evolves mac w w') (hLeft : w.left key = true) :
    w'.left key = true := by
  obtain ⟨row, hRow, hKey, hStatus⟩ := left_iff.mp hLeft
  obtain ⟨g, fresh, hRows, hTasks, -⟩ := hStep.rows
  refine left_iff.mpr ⟨g row, ?_, ?_, (hRows row hRow).left hStatus⟩
  · rw [hTasks]
    exact mem_append_left _ (mem_map_of_mem hRow)
  · exact (TaskRow.key_of_made (hRows row hRow).made).trans hKey

theorem not_waits_of_left (hSound : Sound mac w) (hLeft : w.left key = true) :
    ¬w.waits key = true := by
  intro hWaits
  obtain ⟨row, hRow, hKey, hStatus⟩ := left_iff.mp hLeft
  obtain ⟨row', hRow', hKey', hCreated⟩ := waits_iff.mp hWaits
  have hSame := row_eq_of_key hSound.ids hRow hRow' (hKey'.trans hKey.symm)
  exact hStatus (hSame ▸ hCreated)

theorem departures_eq (hRun : Lib.Run Blank (RequestStep mac) (w :: t)) (key : Owner × Str) :
    departures key (w :: t) = if w.left key then 1 else 0 := by
  generalize hEq : w :: t = h at hRun
  induction hRun generalizing w t with
  | @start x hBlank =>
    cases hEq
    simp [departures, World.left, hBlank.1]
  | @step x y u hPast hStep ih =>
    obtain ⟨rfl, rfl⟩ := List.cons.inj hEq
    have hSound := (run_kept hPast x mem_cons_self).1
    have hEvolves := hStep hSound.ids
    -- the last step departs exactly where the task has left after it and not before
    rw [departures, ih rfl]
    by_cases hBefore : x.left key = true
    · rw [if_neg fun hBoth => not_waits_of_left hSound hBefore hBoth.1, if_pos hBefore,
        if_pos (evolves_left hEvolves hBefore)]
    · rw [if_neg hBefore, Nat.add_zero]
      by_cases hAfter : w.left key = true
      · rw [if_pos hAfter,
          if_pos ⟨(evolves_left_back hEvolves hAfter).resolve_right hBefore, hAfter⟩]
      · rw [if_neg hAfter, if_neg fun hBoth => hAfter hBoth.2]

/-! ## Refusals -/

section Refusals

variable {α β : Type} {answers : Answers} {ack : Ack}

def Refused (p : Prog World RequestError α) (w : World) : Prop := ∃ e, p.run w = (.error e, w)

theorem refused_ofExcept {x : Except RequestError α} {k : α → Prog World RequestError β}
    (hk : ∀ a, Refused (k a) w) : Refused (Prog.ofExcept x >>= k) w := by
  cases x with
  | ok a => exact hk a
  | error e => exact ⟨e, rfl⟩

theorem refused_require {c : Prop} [Decidable c] {e : RequestError}
    {k : Unit → Prog World RequestError β} (hk : Refused (k ()) w) :
    Refused (Prog.require c e >>= k) w := by
  unfold Prog.require
  split
  · exact hk
  · exact ⟨e, rfl⟩

/-- A transaction that fails is rolled back, whatever else becomes of it. -/
theorem refused_commit {tell : α → List Told} {f : State → Except RequestError (α × State)}
    (hf : ∃ e, f w.db = .error e) : Refused (commit ack tell f) w := by
  obtain ⟨e, hf⟩ := hf
  have hTelling : telling tell f w = .error e := by
    rw [telling, hf]
    rfl
  have hAtomic : (Prog.atomic (telling tell f)).run w = (.error e, w) := by
    rw [Prog.run_atomic, hTelling]
  -- an answer can only be lost where there was a COMMIT
  cases ack with
  | delivered => exact ⟨e, hAtomic⟩
  | lost => exact ⟨e, Prog.run_bind_error hAtomic⟩
  | rolledBack =>
    refine ⟨e, ?_⟩
    show (Prog.atomic _).run w = _
    rw [Prog.run_atomic, hTelling]
    rfl
  | refused => exact ⟨.storage, rfl⟩

variable {row : TaskRow} {request : CanonicalRequest}

section

variable (hSound : Sound mac w) (hRow : row ∈ w.db.tasks) (hOver : w.db.Over row)
  (hRequest : (request.owner, request.clientRequestId) = row.request)

include hSound hRow hOver hRequest

/-- A claim that is over cannot be locked, whatever request is held. -/
theorem lockRequest_over : ∃ e, w.db.lockRequest request = .error e := by
  cases hLock : w.db.lockRequest request with
  | error e => exact ⟨e, rfl⟩
  | ok found =>
    obtain ⟨hFound, hSame, -, hCreated, -, -, -, -, -, d, hd, hLt⟩ := lockRequest_ok hLock
    have hEq : found = row :=
      inj_on_of_nodup_map hSound.requests hFound hRow (hSame.trans hRequest)
    subst hEq
    rcases hOver.2 with hFailed | ⟨-, hExpired⟩
    · rw [hFailed] at hCreated
      cases hCreated
    · exact absurd (hExpired d hd) (not_le.mpr hLt)

theorem accept_over (admission : Admission) (teaching : Bool) :
    Refused (accept answers ack request admission teaching) w := by
  refine refused_require (refused_ofExcept fun _ => refused_commit (fails_later fun _ _ => ?_))
  exact fails_bind (lockRequest_over hSound hRow hOver hRequest)

theorem rejectRequest_over (errorCode : Str) :
    Refused (rejectRequest answers ack request errorCode) w := by
  refine refused_ofExcept fun _ => refused_commit (fails_later fun _ _ => ?_)
  exact fails_bind (lockRequest_over hSound hRow hOver hRequest)

end

/-- The texts of two inputs for one request have different hashes, under whatever keys. -/
def TellsApart (mac : Bytes → Bytes → Bytes) (owner : Owner) (requestId : Str)
    (input input' : Bytes) : Prop :=
  ∀ key key' keyId, mac key (message owner requestId keyId input) ≠
    mac key' (message owner requestId keyId input')

variable {input : Bytes} {input' : Bytes}

theorem requestRow_of_mem (hSound : Sound mac w) (hRow : row ∈ w.db.tasks) :
    w.db.requestRow row.owner row.clientRequestId = some row :=
  lookup_of_mem hSound.requests hRow

theorem sameInput_conflict {ring : Keyring} (hWith : row.MadeWith mac input)
    (hOther : TellsApart mac row.owner row.clientRequestId input' input) :
    ∃ e, row.sameInput mac ring row.owner row.clientRequestId input' = .error e := by
  cases hSame : row.sameInput mac ring row.owner row.clientRequestId input' with
  | error e => exact ⟨e, rfl⟩
  | ok =>
    obtain ⟨key, hDigest⟩ := hWith
    obtain ⟨key', hDigest'⟩ := sameInput_ok hSame
    exact absurd (hDigest'.symm.trans hDigest) (hOther _ _ _)

theorem conflict_refused (hSound : Sound mac w) {a : Told} (ha : a ∈ w.told)
    (hOther : TellsApart mac a.request.owner a.request.clientRequestId input a.input)
    (ring : Keyring) :
    (∀ settleExpired, Refused (lookupRequest mac ring a.request.owner a.request.clientRequestId
      input answers ack settleExpired) w) ∧
    ∀ processingOwner ttlSeconds taskId traceId, Refused (getOrCreateRequest mac ring
      a.request.owner a.request.clientRequestId input answers ack processingOwner ttlSeconds
      taskId traceId) w := by
  obtain ⟨row, hRow, hKey, hWith⟩ := hSound.told a ha
  have hOwner : row.owner = a.request.owner := congrArg Prod.fst hKey
  have hRequest : row.clientRequestId = a.request.clientRequestId := congrArg Prod.snd hKey
  have hConflict : ∃ e, row.sameInput mac ring row.owner row.clientRequestId input = .error e :=
    sameInput_conflict hWith (hOwner ▸ hRequest ▸ hOther)
  have hFound := requestRow_of_mem hSound hRow
  rw [← hOwner, ← hRequest]
  constructor
  · intro settleExpired
    refine refused_ofExcept fun _ => refused_ofExcept fun _ =>
      refused_commit (fails_later fun _ _ => ?_)
    rw [hFound]
    exact fails_bind hConflict
  · intro processingOwner ttlSeconds taskId traceId
    refine refused_ofExcept fun _ => refused_ofExcept fun _ => refused_ofExcept fun duration =>
      refused_ofExcept fun _ => refused_commit (fails_later fun _ _ => ?_)
    rw [hFound]
    exact fails_bind hConflict

end Refusals

/-! ## Settlement -/

/-- Whoever asks about the claim of this row, with the input it was made with, finds it
abandoned and leaves it so. -/
def World.Settles (mac : Bytes → Bytes → Bytes) (w : World) (row : TaskRow) : Prop :=
  ∀ (ring : Keyring) (input : Bytes) (answers : Answers),
    (w.db.lookupRequest mac ring row.owner row.clientRequestId input true answers = do
      answers.owner
      row.sameInput mac ring row.owner row.clientRequestId input
      pure (some (row.abandoned.canonical false none),
        w.db.leaveCreated row.key TaskRow.abandoned)) ∧
    ∀ processingOwner duration taskId traceId,
      w.db.getOrCreateRequest mac ring row.owner row.clientRequestId input processingOwner
          duration taskId traceId answers = do
        answers.owner
        row.sameInput mac ring row.owner row.clientRequestId input
        pure (row.abandoned.canonical false none, w.db.leaveCreated row.key TaskRow.abandoned)

theorem taskRun_of_unrun (hUnrun : s.Unrun row) : s.taskRun row.owner row.taskId = .ok none := by
  have hNil : (s.runs.filter fun run => taskOf run = (row.owner, row.taskId)) = [] :=
    filter_eq_nil_iff.mpr fun run hRun hTask => hUnrun run hRun (of_decide_eq_true hTask)
  rw [State.taskRun, hNil]

theorem settled_expired {answers : Answers} (hUnrun : s.Unrun row)
    (hCreated : row.status = .created) (hExpired : row.expired s.clock) :
    s.settled row true answers =
      .ok ((row.abandoned, none), s.leaveCreated row.key TaskRow.abandoned) := by
  rw [State.settled, taskRun_of_unrun hUnrun]
  exact if_pos ⟨rfl, hCreated, hExpired⟩

section

variable (hSound : Sound mac w) (hRow : row ∈ w.db.tasks) (hCreated : row.status = .created)

include hSound hRow hCreated

theorem unrun_of_created : w.db.Unrun row := by
  intro run hRun hTask
  obtain ⟨row', hRow', hKey, hLeft⟩ := hSound.begun run hRun
  have hSame := row_eq_of_key hSound.ids hRow hRow' (hKey.trans hTask)
  exact hLeft (hSame ▸ hCreated)

theorem expired_settles (hExpired : row.expired w.db.clock) : w.Settles mac row := by
  intro ring input answers
  have hFound := requestRow_of_mem hSound hRow
  have hSettled : w.db.settled row true answers = .ok ((row.abandoned, none), _) :=
    settled_expired (unrun_of_created hSound hRow hCreated) hCreated hExpired
  constructor
  · rw [State.lookupRequest, hFound]
    simp only [hSettled]
    rfl
  · intro processingOwner duration taskId traceId
    rw [State.getOrCreateRequest, hFound]
    simp only [hSettled]
    rfl

end

/-! ## The whole -/

def World.runsOf (w : World) (key : Owner × Str) : List Run :=
  w.db.runs.filter fun run => w.db.tasks.any fun row => row.request = key ∧ row.key = taskOf run

theorem mem_runsOf : run ∈ w.runsOf key ↔
    run ∈ w.db.runs ∧ ∃ row ∈ w.db.tasks, row.request = key ∧ row.key = taskOf run := by
  simp [World.runsOf]

structure ClaimedOnce (mac : Bytes → Bytes → Bytes) (h : List World) : Prop where
  /-- At most one caller was ever told to parse a request. -/
  winner : ∀ w ∈ h, ∀ key, (w.told.filter fun a => a.winner ∧ a.key = key).length ≤ 1
  /-- A request has at most one run. -/
  run : ∀ w ∈ h, ∀ key, (w.runsOf key).length ≤ 1
  sameRun : ∀ w' t, w' :: t <:+ h → ∀ w ∈ t, ∀ key, ∀ run ∈ w.runsOf key,
    ∃ run' ∈ w'.runsOf key, run'.admission = run.admission
  /-- A claim that has expired unparsed is settled by whoever asks about it. -/
  settles : ∀ w ∈ h, ∀ row ∈ w.db.tasks, row.status = .created → row.expired w.db.clock →
    w.Settles mac row
  /-- A claim that has expired unparsed stays as it is or fails; it gets no run, nobody
  else is told to parse it, and whoever tries to accept or reject it is refused. -/
  ended : ∀ w' t, w' :: t <:+ h → ∀ w ∈ w' :: t, ∀ row ∈ w.db.tasks, row.status = .created →
    row.expired w.db.clock → ∃ row' ∈ w'.db.tasks, row'.made = row.made ∧
      (row' = row ∨ row'.status = .failed) ∧ w'.db.Unrun row' ∧
      (∀ a ∈ w'.told, a.winner → a.key = row.request → a ∈ w.told) ∧
      ∀ (request : CanonicalRequest) (answers : Answers) (ack : Ack),
        (request.owner, request.clientRequestId) = row.request →
        (∀ admission teaching, Refused (accept answers ack request admission teaching) w') ∧
        ∀ errorCode, Refused (rejectRequest answers ack request errorCode) w'
  /-- What was once answered for one input is refused for any other that the hash tells
  apart from it, without a change. -/
  conflict : ∀ w ∈ h, ∀ a ∈ w.told, ∀ input,
    TellsApart mac a.request.owner a.request.clientRequestId input a.input →
    ∀ (ring : Keyring) (answers : Answers) (ack : Ack),
      (∀ settleExpired, Refused (lookupRequest mac ring a.request.owner a.request.clientRequestId
        input answers ack settleExpired) w) ∧
      ∀ processingOwner ttlSeconds taskId traceId, Refused (getOrCreateRequest mac ring
        a.request.owner a.request.clientRequestId input answers ack processingOwner ttlSeconds
        taskId traceId) w
  /-- A task has left `created` exactly once, unless it is still there. -/
  departs : ∀ w t, w :: t <:+ h → ∀ row ∈ w.db.tasks,
    departures row.key (w :: t) = if row.status = .created then 0 else 1

theorem winner_once (hSound : Sound mac w) (key : Owner × Str) :
    (w.told.filter fun a => a.winner ∧ a.key = key).length ≤ 1 := by
  have hSub : (w.told.filter fun a => a.winner ∧ a.key = key).Sublist
      (w.told.filter Told.winner) := by
    refine monotone_filter_right w.told fun a ha => ?_
    exact (of_decide_eq_true ha).1
  refine length_le_one_of_same (hSound.winners.sublist (hSub.map Told.key))
    (b := key) fun a ha => ?_
  exact (of_decide_eq_true (mem_filter.mp ha).2).2

theorem run_once (hSound : Sound mac w) (key : Owner × Str) : (w.runsOf key).length ≤ 1 := by
  rcases hNil : w.runsOf key with _ | ⟨first, rest⟩
  · exact Nat.zero_le 1
  rw [← hNil]
  have hFirst : first ∈ w.runsOf key := hNil ▸ mem_cons_self
  obtain ⟨-, row, hRow, hRequest, hKey⟩ := mem_runsOf.mp hFirst
  have hSub : (w.runsOf key).Sublist w.db.runs := filter_sublist
  refine length_le_one_of_same (hSound.runs.sublist (hSub.map taskOf)) (b := row.key)
    fun run hRun => ?_
  -- the task of a request is one row
  obtain ⟨-, row', hRow', hRequest', hKey'⟩ := mem_runsOf.mp hRun
  have hSame : row' = row :=
    inj_on_of_nodup_map hSound.requests hRow' hRow (hRequest'.trans hRequest.symm)
  rw [← hKey', hSame]

theorem later_runsOf (hLater : Later w w') (hRun : run ∈ w.runsOf key) :
    ∃ run' ∈ w'.runsOf key, run'.admission = run.admission := by
  obtain ⟨hMem, row, hRow, hRequest, hKey⟩ := mem_runsOf.mp hRun
  obtain ⟨run', hRun', hSame⟩ := hLater.runs run hMem
  obtain ⟨row', hRow', hMade, -⟩ := hLater.rows row hRow
  refine ⟨run', mem_runsOf.mpr ⟨hRun', row', hRow', ?_, ?_⟩, hSame⟩
  · exact (TaskRow.request_of_made hMade).trans hRequest
  · rw [TaskRow.key_of_made hMade, hKey, taskOf, taskOf, hSame]

/--
**One winner, one run, one way out.** In every interleaving of requests, settling
lookups, rejections and acceptances, of whatever owners, ids and inputs, with callers
that vanish and any clock: a canonical request has at most one parse winner and at most
one run; an expired claim is settled as failed, never parsed, claimed or accepted again;
another input for the same id is refused without a change; and a task leaves `created`
exactly once.
-/
theorem request_claimed_once {ps : Procs World RequestError} (hRun : RequestRun mac h ps) :
    ClaimedOnce mac h := by
  have hSteps := hRun.steps
  have hPast : ∀ w t, w :: t <:+ h → ∀ x ∈ w :: t, Sound mac x ∧ Later x w := fun w t hSuf =>
    run_kept (hSteps.of_suffix hSuf)
  have hSound : ∀ w ∈ h, Sound mac w := by
    intro w hw
    obtain ⟨before, after, rfl⟩ := append_of_mem hw
    exact (hPast w after (suffix_append _ _) w mem_cons_self).1
  constructor
  case winner => exact fun w hw => winner_once (hSound w hw)
  case run => exact fun w hw => run_once (hSound w hw)
  case sameRun =>
    intro w' t hSuf w hw key run hMem
    exact later_runsOf (hPast w' t hSuf w (mem_cons_of_mem _ hw)).2 hMem
  case settles => exact fun w hw row hRow => expired_settles (hSound w hw) hRow
  case ended =>
    intro w' t hSuf w hw row hRow hCreated hExpired
    -- a claim without a run that has expired is over, and it stays over in `w'`
    obtain ⟨hBefore, hLater⟩ := hPast w' t hSuf w hw
    have hAfter := (hPast w' t hSuf w' mem_cons_self).1
    obtain ⟨row', hRow', hMade, hOver⟩ := hLater.rows row hRow
    obtain ⟨hStill, hSame⟩ :=
      hOver ⟨unrun_of_created hBefore hRow hCreated, .inr ⟨hCreated, hExpired⟩⟩
    refine ⟨row', hRow', hMade, hSame, hStill.1, ?_, ?_⟩
    · exact fun a ha hWinner hKey => hLater.winners a ha hWinner ⟨row, hRow, hKey.symm⟩
    · intro request answers ack hRequest
      have hOf := hRequest.trans (TaskRow.request_of_made hMade).symm
      exact ⟨accept_over hAfter hRow' hStill hOf, rejectRequest_over hAfter hRow' hStill hOf⟩
  case conflict =>
    exact fun w hw a ha input hOther ring _ _ => conflict_refused (hSound w hw) ha hOther ring
  case departs =>
    intro w t hSuf row hRow
    have hHere := (hPast w t hSuf w mem_cons_self).1
    rw [departures_eq (hSteps.of_suffix hSuf)]
    by_cases hCreated : row.status = .created
    · have hWaits := waits_iff.mpr ⟨row, hRow, rfl, hCreated⟩
      rw [if_pos hCreated, if_neg fun hLeft => not_waits_of_left hHere hLeft hWaits]
    · rw [if_neg hCreated, if_pos (left_iff.mpr ⟨row, hRow, rfl, hCreated⟩)]

/-! ## A history -/

namespace Sample

def plainMac (_ text : Bytes) : Bytes := text

def ring : Keyring := ⟨fun _ => some [1], ['k'], rfl⟩

def owner : Owner := ⟨['t'], ['u'], ['s']⟩

def answers : Answers := ⟨.ok (), fun _ => .ok (), .ok (), .ok (), 0⟩

def start : World := ⟨⟨0, [], []⟩, []⟩

def digest32 : Bytes := List.replicate 32 7

def admission : Admission where
  owner := owner
  taskId := ['a']
  runId := ['r']
  targetSystem := .oa
  bindingId := ['b']
  bindingRevision := 1
  authFingerprint := digest32
  authExpiresAt := 1000000000
  publicationDigest := digest32
  inputRevision := 1
  inputDigest := digest32
  protectedInput := ⟨"aes256gcm-browser-input-v1".toList, ['i'], [4], [5]⟩
  authEvidenceVersion := .verifiedSession

/-- A claim on the request `x` or `y` with the input `9`. -/
def claim (request task : Char) (deadline : Time) : TaskRow :=
  newClaim owner [request] [task] ['z'] ['p'] (message owner [request] ['k'] [9]) ['k'] deadline

def call (c : RequestCall) : Turn World RequestError :=
  .call (c.program plainMac answers .delivered)

def asks (request task : Char) : Turn World RequestError :=
  call (.requests ring owner [request] [9] ['p'] 60 [task] ['z'])

/-- One request is accepted; the claim of another expires and is found abandoned. -/
def turns : List (Turn World RequestError) :=
  [asks 'x' 'a',
    call (.accepts ((claim 'x' 'a' 60000000).canonical true none) admission false),
    asks 'y' 'b',
    .outside fun w => { w with db := { w.db with clock := max w.db.clock 60000000 } },
    asks 'y' 'c']

def history : List World := Turn.inTurn turns [start]

theorem history_run : ∃ ps, RequestRun plainMac history ps := by
  have hStart : Blank start := ⟨rfl, rfl, rfl⟩
  refine PoolRun.inTurn hStart ?_
  simp only [turns, forall_mem_cons]
  exact ⟨fun _ => ⟨_, _, _, rfl⟩, fun _ => ⟨_, _, _, rfl⟩, fun _ => ⟨_, _, _, rfl⟩,
    fun w => .ticks (le_max_left _ _), fun _ => ⟨_, _, _, rfl⟩, nofun⟩

/-- What is left of the history: the statuses of the tasks, the number of runs and who
was told to parse. -/
def outline (w : World) : List (Str × TaskStatus) × Nat × List Bool :=
  (w.db.tasks.map fun row => (row.taskId, row.status), w.db.runs.length, w.told.map Told.winner)

end Sample

open Sample

theorem request_claimed_once_sample :
    ClaimedOnce plainMac history ∧ history.map outline =
      [([(['a'], .running), (['b'], .failed)], 1, [false, true, true]),
        ([(['a'], .running), (['b'], .created)], 1, [true, true]),
        ([(['a'], .running), (['b'], .created)], 1, [true, true]),
        ([(['a'], .running)], 1, [true]),
        ([(['a'], .created)], 0, [true]),
        ([], 0, [])] := by
  obtain ⟨ps, hRun⟩ := history_run
  exact ⟨request_claimed_once hRun, by decide +kernel⟩

end EternalAI.Requests
