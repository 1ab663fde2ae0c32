import EternalAI.Requests.Service

/-!
# Canonical requests — what a step can do

Every action of an interleaving is one of a few moves: nothing, an answer about a row,
a new claim, the settlement of an expired claim, a rejection, an acceptance, or a step
of the outside. What a move does to one row is `RowStep`, and what it does to all of
them, with the answers, is `Evolves`; invariants and histories only look at these.

* `RequestRun.steps` — the worlds of an interleaving are a run of `Evolves`.
-/

namespace EternalAI.Requests

open Lib List Safe
open Dispatch (Str Time)
open Leases (Bytes Owner)
open Runs (TaskStatus Run Admission)

variable {mac : Bytes → Bytes → Bytes}

/-! ## Steps of rows -/

def TaskRow.made (row : TaskRow) : Owner × Str × Str × Bytes × Str :=
  (row.owner, row.taskId, row.clientRequestId, row.requestDigest, row.requestDigestKeyId)

variable {row : TaskRow}

theorem TaskRow.key_of_made {row' : TaskRow} (hMade : row'.made = row.made) :
    row'.key = row.key := by
  injection hMade with hOwner hRest
  injection hRest with hTask _
  exact Prod.ext hOwner hTask

theorem TaskRow.request_of_made {row' : TaskRow} (hMade : row'.made = row.made) :
    row'.request = row.request := by
  injection hMade with hOwner hRest
  injection hRest with _ hRest
  injection hRest with hRequest _
  exact Prod.ext hOwner hRequest

theorem TaskRow.taskId_of_made {row' : TaskRow} (hMade : row'.made = row.made) :
    row'.taskId = row.taskId := by
  injection hMade with _ hRest
  injection hRest

def TaskRow.MadeWith (mac : Bytes → Bytes → Bytes) (row : TaskRow) (input : Bytes) : Prop :=
  ∃ key, row.requestDigest =
    mac key (message row.owner row.clientRequestId row.requestDigestKeyId input)

theorem TaskRow.MadeWith.of_made {row' : TaskRow} {input : Bytes} (hWith : row.MadeWith mac input)
    (hMade : row'.made = row.made) : row'.MadeWith mac input := by
  obtain ⟨key, hDigest⟩ := hWith
  simp only [TaskRow.made, Prod.mk.injEq] at hMade
  obtain ⟨hOwner, -, hRequest, hSame, hKeyId⟩ := hMade
  exact ⟨key, by rw [hSame, hOwner, hRequest, hKeyId, hDigest]⟩

def State.Unrun (s : State) (row : TaskRow) : Prop := ∀ run ∈ s.runs, taskOf run ≠ row.key

inductive RowStep (s s' : State) (row : TaskRow) : TaskRow → Prop
  /-- Nothing, and the row gets no run. -/
  | stays : (s.Unrun row → s'.Unrun row) → RowStep s s' row row
  /-- The claim is settled or rejected. -/
  | fails (errorCode : Str) : row.status = .created → s'.runs = s.runs →
      RowStep s s' row (row.failedWith errorCode)
  /-- The claim, while it is alive, is accepted. -/
  | starts : row.status = .created → (∃ d ∈ row.processingDeadline, s.clock < d) →
      s.Unrun row → RowStep s s' row row.running
  /-- The run of the row changes its status. -/
  | works (status : TaskStatus) (errorCode : Option Str) : ¬s.Unrun row → status ≠ .created →
      RowStep s s' row { row with status := status, errorCode := errorCode }

theorem RowStep.made {s s' : State} {row' : TaskRow} (hStep : RowStep s s' row row') :
    row'.made = row.made := by
  cases hStep <;> rfl

/-! ## Steps of worlds -/

/-- What one step may have told, with the rows `fresh` that it has inserted. -/
inductive Tells (mac : Bytes → Bytes → Bytes) (w w' : World) : List TaskRow → Prop
  | nothing : w'.told = w.told → Tells mac w w' []
  | again {row : TaskRow} {a : Told} : row ∈ w.db.tasks → row.MadeWith mac a.input →
      a.key = row.request → a.request.taskId = row.taskId → a.request.parseWinner = false →
      w'.told = a :: w.told → Tells mac w w' []
  | won {row : TaskRow} {a : Told} : row.status = .created → row.MadeWith mac a.input →
      (∀ t ∈ w.db.tasks, t.taskId ≠ row.taskId ∧ t.request ≠ row.request) →
      a.key = row.request → a.request.taskId = row.taskId →
      w'.told = a :: w.told → Tells mac w w' [row]

/-- What one step may do to the runs: those of a claim that is alive get one more. -/
inductive RunsStep (s s' : State) : Prop
  | kept : s'.runs.map Run.admission = s.runs.map Run.admission → RunsStep s s'
  | added {row : TaskRow} {run : Run} : row ∈ s.tasks → taskOf run = row.key → s.Unrun row →
      row.running ∈ s'.tasks → s'.runs = s.runs ++ [run] → RunsStep s s'

/-- One step, seen from the rows, the runs and the answers. -/
structure Evolves (mac : Bytes → Bytes → Bytes) (w w' : World) : Prop where
  clock : w.db.clock ≤ w'.db.clock
  runs : RunsStep w.db w'.db
  rows : ∃ (g : TaskRow → TaskRow) (fresh : List TaskRow),
    (∀ row ∈ w.db.tasks, RowStep w.db w'.db row (g row)) ∧
    w'.db.tasks = w.db.tasks.map g ++ fresh ∧ Tells mac w w' fresh

def RequestStep (mac : Bytes → Bytes → Bytes) : List World → World → Prop
  | w :: _, w' => (w.db.tasks.map TaskRow.taskId).Nodup → Evolves mac w w'
  | [], _ => False

/-! ## The kinds of steps -/

/-- The row that an update of the created rows of a key leaves. -/
def TaskRow.left (key : Owner × Str) (change : TaskRow → TaskRow) (row : TaskRow) : TaskRow :=
  if row.key = key then if row.status = .created then change row else row else row

theorem leaveCreated_tasks (s : State) (key : Owner × Str) (change : TaskRow → TaskRow) :
    (s.leaveCreated key change).tasks = s.tasks.map (TaskRow.left key change) := rfl

variable {errorCode : Str}

section Kinds

variable {w w' : World}

theorem Evolves.claimed {new : List TaskRow}
    (hDb : w'.db = { w.db with tasks := w.db.tasks ++ new }) (hTells : Tells mac w w' new) :
    Evolves mac w w' where
  clock := le_of_eq (by rw [hDb])
  runs := .kept (by rw [hDb])
  rows := by
    refine ⟨id, new, fun row _ => .stays fun hUnrun => ?_, ?_, hTells⟩
    · rw [hDb]
      exact hUnrun
    · rw [hDb, map_id]

theorem Evolves.still (hDb : w'.db = w.db) (hTells : Tells mac w w' []) : Evolves mac w w' :=
  .claimed (by rw [hDb, append_nil]) hTells

theorem Evolves.closed {key : Owner × Str}
    (hDb : w'.db = w.db.leaveCreated key (TaskRow.failedWith · errorCode))
    (hTells : Tells mac w w' []) : Evolves mac w w' where
  clock := le_of_eq (by rw [hDb]; rfl)
  runs := .kept (by rw [hDb]; rfl)
  rows := by
    refine ⟨TaskRow.left key (TaskRow.failedWith · errorCode), [], fun row _ => ?_, ?_, hTells⟩
    · have hRuns : w'.db.runs = w.db.runs := by rw [hDb]; rfl
      have hStays : RowStep w.db w'.db row row := by
        refine .stays fun hUnrun => ?_
        unfold State.Unrun
        rw [hRuns]
        exact hUnrun
      unfold TaskRow.left
      split
      · split
        · exact .fails errorCode ‹_› hRuns
        · exact hStays
      · exact hStays
    · rw [hDb, leaveCreated_tasks, append_nil]

theorem row_eq_of_key {s : State} (hIds : (s.tasks.map TaskRow.taskId).Nodup) {t : TaskRow}
    (hRow : row ∈ s.tasks) (ht : t ∈ s.tasks) (hKey : t.key = row.key) : t = row :=
  inj_on_of_nodup_map hIds ht hRow (congrArg Prod.snd hKey)

theorem Evolves.accepted {run : Run} (hIds : (w.db.tasks.map TaskRow.taskId).Nodup)
    (hRow : row ∈ w.db.tasks) (hCreated : row.status = .created)
    (hAlive : ∃ d ∈ row.processingDeadline, w.db.clock < d) (hUnrun : w.db.Unrun row)
    (hTask : taskOf run = row.key)
    (hDb : w'.db =
      State.leaveCreated { w.db with runs := w.db.runs ++ [run] } row.key TaskRow.running)
    (hTold : w'.told = w.told) : Evolves mac w w' where
  clock := le_of_eq (by rw [hDb]; rfl)
  runs := by
    refine .added hRow hTask hUnrun ?_ (by rw [hDb]; rfl)
    rw [hDb, leaveCreated_tasks]
    refine mem_map.mpr ⟨row, hRow, ?_⟩
    rw [TaskRow.left, if_pos rfl, if_pos hCreated]
  rows := by
    refine ⟨TaskRow.left row.key TaskRow.running, [], fun t ht => ?_, ?_, .nothing hTold⟩
    · unfold TaskRow.left
      split
      · -- the accepted row is the only one of its task
        rw [row_eq_of_key hIds hRow ht ‹_›, if_pos hCreated]
        exact .starts hCreated hAlive hUnrun
      · refine .stays fun hFree r hr => ?_
        have hRuns : w'.db.runs = w.db.runs ++ [run] := by rw [hDb]; rfl
        rw [hRuns, mem_append, mem_singleton] at hr
        rcases hr with hr | rfl
        · exact hFree r hr
        · rw [hTask]
          exact Ne.symm ‹_›
    · rw [hDb, leaveCreated_tasks, append_nil]

theorem outside_evolves (hOut : Outside w w') : Evolves mac w w' := by
  cases hOut with
  | ticks hLe =>
    refine ⟨hLe, .kept rfl, id, [], fun row _ => .stays id, ?_, .nothing rfl⟩
    rw [map_id, append_nil]
  | @works run run' status errorCode hRun hSame hLeft =>
    have hAdmissions :
        (Lib.modify Run.admission run.admission (fun _ => run') w.db.runs).map Run.admission =
        w.db.runs.map Run.admission := by
      rw [Lib.modify, map_map]
      refine map_congr_left fun r _ => ?_
      simp only [Function.comp_apply]
      split
      · rw [hSame]
        exact Eq.symm ‹_›
      · rfl
    -- the row of the run changes its status with it; every other row stays
    refine ⟨le_refl _, .kept hAdmissions, _, [], fun row _ => ?_, (append_nil _).symm,
      .nothing rfl⟩
    split
    · refine .works status errorCode (fun hUnrun => ?_) hLeft
      exact hUnrun run hRun (Eq.symm ‹_›)
    · refine .stays fun hUnrun r hr => ?_
      have hMem : r.admission ∈ w.db.runs.map Run.admission := by
        rw [← hAdmissions]
        exact mem_map_of_mem hr
      obtain ⟨r₀, hr₀, hEq⟩ := mem_map.mp hMem
      have hTask := hUnrun r₀ hr₀
      unfold taskOf at hTask ⊢
      rwa [← hEq]

end Kinds

/-! ## The parts of a transaction -/

variable {settleExpired : Bool} {run : Option Run} {request : CanonicalRequest}

section Parts

variable {s s' : State} {row : TaskRow} {answers : Answers} {ring : Keyring} {owner : Owner}
  {clientRequestId : Str} {input : Bytes}

theorem requestRow_some (hFound : s.requestRow owner clientRequestId = some row) :
    row ∈ s.tasks ∧ row.owner = owner ∧ row.clientRequestId = clientRequestId := by
  have hKey := lookup_key hFound
  exact ⟨lookup_mem hFound, congrArg Prod.fst hKey, congrArg Prod.snd hKey⟩

theorem taskRun_none (hNone : s.taskRun row.owner row.taskId = .ok none) : s.Unrun row := by
  intro run hRun hTask
  have hMem : run ∈ s.runs.filter fun run => taskOf run = (row.owner, row.taskId) :=
    mem_filter.mpr ⟨hRun, decide_eq_true hTask⟩
  unfold State.taskRun at hNone
  split at hNone
  · rename_i hNil
    rw [hNil] at hMem
    cases hMem
  · cases hNone
  · cases hNone

theorem digest_ok {keyId : Str} {digest : Bytes}
    (hOk : ring.digest mac owner clientRequestId input keyId = .ok digest) :
    ∃ key, digest = mac key (message owner clientRequestId keyId input) := by
  unfold Keyring.digest at hOk
  split at hOk
  · cases hOk
  · cases hOk
    exact ⟨_, rfl⟩

theorem sameInput_ok {u : Unit}
    (hOk : row.sameInput mac ring row.owner row.clientRequestId input = .ok u) :
    row.MadeWith mac input := by
  obtain ⟨digest, hDigest, hOk⟩ := bind_ok.mp hOk
  obtain ⟨-, rfl⟩ := ensure_ok.mp hOk
  exact digest_ok hDigest

/-- A request for a row leaves everything, or settles an expired claim. -/
theorem settled_ok {row' : TaskRow}
    (hOk : s.settled row settleExpired answers = .ok ((row', run), s')) :
    (row' = row ∧ s' = s ∧
      (settleExpired = true → s.Unrun row → row.status = .created → ¬row.expired s.clock)) ∨
    (settleExpired = true ∧ row.status = .created ∧ row.expired s.clock ∧ row' = row.abandoned ∧
      run = none ∧ s' = s.leaveCreated row.key TaskRow.abandoned) := by
  obtain ⟨found, hFound, hOk⟩ := bind_ok.mp hOk
  cases found with
  | some r =>
    obtain ⟨_, -, hOk⟩ := bind_ok.mp hOk
    cases hOk
    refine .inl ⟨rfl, rfl, fun _ hUnrun => ?_⟩
    -- a run was found, so the row has one
    unfold State.taskRun at hFound
    split at hFound
    · cases hFound
    · rename_i found hFilter
      cases hFound
      have hMem : r ∈ s.runs.filter fun run => taskOf run = (row.owner, row.taskId) := by
        rw [hFilter]
        exact mem_singleton_self r
      obtain ⟨hRun, hTask⟩ := mem_filter.mp hMem
      exact absurd (of_decide_eq_true hTask) (hUnrun r hRun)
    · cases hFound
  | none =>
    simp only at hOk
    split at hOk
    · rename_i hSettle
      cases hOk
      exact .inr ⟨hSettle.1, hSettle.2.1, hSettle.2.2, rfl, rfl, rfl⟩
    · rename_i hKeep
      cases hOk
      exact .inl ⟨rfl, rfl, fun hMay _ hCreated hExpired => hKeep ⟨hMay, hCreated, hExpired⟩⟩

theorem insertTask_ok (hOk : s.insertTask row = .ok s') :
    (∀ t ∈ s.tasks, t.taskId ≠ row.taskId ∧ t.request ≠ row.request) ∧
      s' = { s with tasks := s.tasks ++ [row] } := by
  obtain ⟨hFresh, hOk⟩ := ensure_bind_ok.mp hOk
  cases hOk
  exact ⟨hFresh, rfl⟩

theorem lockRequest_ok (hOk : s.lockRequest request = .ok row) :
    row ∈ s.tasks ∧ row.request = (request.owner, request.clientRequestId) ∧
      row.claimedBy request s.clock := by
  obtain ⟨-, hOk⟩ := ensure_bind_ok.mp hOk
  cases hFound : s.requestRow request.owner request.clientRequestId with
  | none =>
    rw [hFound] at hOk
    cases hOk
  | some found =>
    rw [hFound] at hOk
    obtain ⟨hClaimed, hOk⟩ := ensure_bind_ok.mp hOk
    cases hOk
    exact ⟨lookup_mem hFound, lookup_key hFound, hClaimed⟩

end Parts

/-! ## The transactions -/

section Transactions

variable {w : World} {s' : State} {answers : Answers} {ring : Keyring} {owner : Owner}
  {clientRequestId : Str} {input : Bytes}

/-- An answer about a row that is there, whatever became of the row. -/
theorem tells_again {row' : TaskRow} (hRow : row ∈ w.db.tasks) (hWith : row.MadeWith mac input)
    (hMade : row'.made = row.made) :
    Tells mac w ⟨s', ⟨input, row'.canonical false run⟩ :: w.told⟩ [] := by
  have hKey : Told.key ⟨input, row'.canonical false run⟩ = row.request :=
    TaskRow.request_of_made hMade
  exact .again hRow hWith hKey (TaskRow.taskId_of_made hMade) rfl rfl

theorem settled_evolves {row' : TaskRow} (hRow : row ∈ w.db.tasks) (hWith : row.MadeWith mac input)
    (hOk : w.db.settled row settleExpired answers = .ok ((row', run), s')) :
    Evolves mac w ⟨s', ⟨input, row'.canonical false run⟩ :: w.told⟩ := by
  rcases settled_ok hOk with ⟨rfl, rfl, -⟩ | ⟨-, -, -, rfl, rfl, rfl⟩
  · exact .still rfl (tells_again hRow hWith rfl)
  · exact .closed rfl (tells_again hRow hWith rfl)

/-- A transaction that makes a step, with what it tells, if it commits. -/
abbrev Commits {α : Type} (mac : Bytes → Bytes → Bytes) (w : World) (tell : α → List Told)
    (x : Except RequestError (α × State)) : Prop :=
  Post x fun r => Evolves mac w ⟨r.2, tell r.1 ++ w.told⟩

theorem lookupRequest_evolves :
    Commits mac w (fun r => (r.map (Told.mk input)).toList)
      (w.db.lookupRequest mac ring owner clientRequestId input settleExpired answers) := by
  refine .bind fun _ _ => ?_
  cases hFound : w.db.requestRow owner clientRequestId with
  | none => exact .ret (.still rfl (.nothing rfl))
  | some row =>
    refine .bind fun _ hSame => .bind fun ⟨⟨row', run⟩, s₁⟩ hSettled => .ret ?_
    obtain ⟨hRow, rfl, rfl⟩ := requestRow_some hFound
    exact settled_evolves hRow (sameInput_ok hSame) hSettled

theorem getOrCreateRequest_evolves {processingOwner taskId traceId : Str} {duration : Time} :
    Commits mac w (fun r => [⟨input, r⟩]) (w.db.getOrCreateRequest mac ring owner clientRequestId
      input processingOwner duration taskId traceId answers) := by
  refine .bind fun _ _ => ?_
  cases hFound : w.db.requestRow owner clientRequestId with
  | none =>
    refine .bind fun digest hDigest => .bind fun s₁ hInsert =>
      .bind fun ⟨⟨row', run⟩, s₂⟩ hSettled => .ret ?_
    obtain ⟨hFresh, rfl⟩ := insertTask_ok hInsert
    -- a winner never settles the claim it has just made
    rcases settled_ok hSettled with ⟨rfl, rfl, -⟩ | ⟨hNever, -⟩
    · exact .claimed rfl (.won rfl (digest_ok hDigest) hFresh rfl rfl rfl)
    · cases hNever
  | some row =>
    refine .bind fun _ hSame => .bind fun ⟨⟨row', run⟩, s₁⟩ hSettled => .ret ?_
    obtain ⟨hRow, rfl, rfl⟩ := requestRow_some hFound
    exact settled_evolves hRow (sameInput_ok hSame) hSettled

theorem rejectRequest_evolves :
    Commits mac w (fun _ => []) (w.db.rejectRequest request errorCode answers) :=
  .bind fun _ _ => .bind fun _ _ => .ret (.closed rfl (.nothing rfl))

theorem insertRun_ok {s : State} {run : Run} (hOk : s.insertRun run = .ok s') :
    s' = { s with runs := s.runs ++ [run] } := by
  obtain ⟨-, hOk⟩ := ensure_bind_ok.mp hOk
  cases hOk
  rfl

theorem accept_evolves {admission : Admission} {teaching : Bool}
    (hIds : (w.db.tasks.map TaskRow.taskId).Nodup)
    (hSame : request.owner = admission.owner ∧ request.taskId = admission.taskId) :
    Commits mac w (fun _ => []) (w.db.accept request admission teaching answers) := by
  refine .bind fun _ _ => .bind fun row hLock => .bind fun _ _ => .ensure fun _ =>
    .bind fun found hFound => .ensure fun hNone => .bind fun s₁ hInsert => .bind fun _ _ =>
    .ensure fun _ => .ret ?_
  -- the row was locked as that of the request; it is the task that the run is admitted for
  rw [insertRun_ok hInsert]
  obtain ⟨hRow, hRequest, hTask, hCreated, -, -, -, -, -, hAlive⟩ := lockRequest_ok hLock
  have hOwner : row.owner = request.owner := congrArg Prod.fst hRequest
  have hKey : row.key = (admission.owner, admission.taskId) :=
    Prod.ext (hOwner.trans hSame.1) (hTask.trans hSame.2)
  have hUnrun : w.db.Unrun row := by
    refine taskRun_none ?_
    rw [hOwner, hTask, hFound, hNone]
  have hTaskOf : taskOf (Run.accepted admission) = row.key := hKey.symm
  exact .accepted hIds hRow hCreated hAlive hUnrun hTaskOf (by rw [hKey]) rfl

end Transactions

/-! ## Interleavings -/

abbrev Acts {α : Type} (mac : Bytes → Bytes → Bytes) (p : Prog World RequestError α)
    (h : List World) : Prop :=
  Safe Blank (RequestStep mac) (fun _ _ => True) p h

variable {α : Type} {h : List World} {answers : Answers} {ack : Ack}

theorem step_refl (w : World) (t : List World) : RequestStep mac (w :: t) w :=
  fun _ => .still rfl (.nothing rfl)

theorem commit_acts {tell : α → List Told} {f : State → Except RequestError (α × State)}
    (hf : ∀ w : World, (w.db.tasks.map TaskRow.taskId).Nodup → Commits mac w tell (f w.db)) :
    Acts mac (commit ack tell f) h := by
  refine Safe.transact step_refl fun w _ a w' hOk hIds => ?_
  obtain ⟨⟨_, s'⟩, hCommit, hOk⟩ := bind_ok.mp hOk
  cases hOk
  exact hf w hIds (_, s') hCommit

theorem call_acts (call : RequestCall) : Acts mac (call.program mac answers ack) h := by
  cases call with
  | looksUp =>
    refine ended (ofExcept_seq fun _ _ => ofExcept_seq fun _ _ => ?_)
    exact commit_acts fun _ _ => lookupRequest_evolves
  | requests =>
    refine ended (ofExcept_seq fun _ _ => ofExcept_seq fun _ _ =>
      ofExcept_seq fun _ _ => ofExcept_seq fun _ _ => ?_)
    exact commit_acts fun _ _ => getOrCreateRequest_evolves
  | rejects =>
    refine ended (ofExcept_seq fun _ _ => ?_)
    exact commit_acts fun _ _ => rejectRequest_evolves
  | accepts =>
    refine ended (require_seq fun hSame => ofExcept_seq fun _ _ => ?_)
    exact commit_acts fun _ hIds => accept_evolves hIds hSame

theorem RequestRun.steps {ps : Procs World RequestError} (hRun : RequestRun mac h ps) :
    Lib.Run Blank (RequestStep mac) h := by
  refine (PoolRun.refines (fun _ _ _ hOut _ => outside_evolves hOut) (fun _ w t => step_refl w t)
    (fun _ p hp h _ => ?_) hRun).1
  obtain ⟨call, answers, ack, rfl⟩ := hp
  exact call_acts call

end EternalAI.Requests
