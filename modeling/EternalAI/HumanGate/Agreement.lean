import EternalAI.HumanGate.Stores

/-!
# The human gate — both implementations are one gate

The tables are read as the dictionaries that they stand for, `Db.gate`. Each transaction
is then a step of the gate in memory or no step, and a call that is executed alone
answers as the gate in memory does.

* `GateStep` — what a step can do to a gate: bind a task, make a request, decide it, each
  where nothing is stored.
* `Gate.Sound`, `Gate.Later` — what holds of a gate, and what stays.
* `Db.Valid` — the rows pass the checks of the port, so that reading never raises.
* `gates_agree` — the whole.
-/

namespace EternalAI.HumanGate

open Lib List Function Prog
open Dispatch (Str Time)

variable {env : GateEnv} {g g' : Gate env} {s s' : Db}

/-! ## Steps of a gate -/

namespace Gate

def bound (g : Gate env) (m : Manifest env) : Gate env :=
  { g with manifests := update g.manifests m.val.taskId (some m) }

def asked (g : Gate env) (r : Request) : Gate env :=
  { g with requests := update g.requests r.val.requestId (some r) }

def decided (g : Gate env) (d : Decision) : Gate env :=
  { g with decisions := update g.decisions d.val.requestId (some d) }

end Gate

inductive GateStep (g : Gate env) : Gate env → Prop
  | stays : GateStep g g
  | binds {m : Manifest env} : g.manifests m.val.taskId = none → GateStep g (g.bound m)
  | asks {r : Request} {m : Manifest env} : g.manifests r.val.taskId = some m →
      m.val.manifestDigest = r.val.bindingManifestDigest → g.requests r.val.requestId = none →
      GateStep g (g.asked r)
  | decides {d : Decision} {r : Request} : g.requests d.val.requestId = some r →
      d.val.matches r.val = true → g.decisions d.val.requestId = none → GateStep g (g.decided d)

/-- What holds of a gate: requests are for the manifest of their task, and decisions are
the requested person's, in time. -/
structure Gate.Sound (g : Gate env) : Prop where
  request : ∀ {id : Str} {r : Request}, g.requests id = some r → r.val.requestId = id ∧
    ∃ m, g.manifests r.val.taskId = some m ∧ m.val.manifestDigest = r.val.bindingManifestDigest
  decision : ∀ {id : Str} {d : Decision}, g.decisions id = some d → d.val.requestId = id ∧
    ∃ r, g.requests id = some r ∧ d.val.matches r.val = true

/-- What is stored stays as it is. -/
structure Gate.Later (g g' : Gate env) : Prop where
  manifests : ∀ id m, g.manifests id = some m → g'.manifests id = some m
  requests : ∀ id r, g.requests id = some r → g'.requests id = some r
  decisions : ∀ id d, g.decisions id = some d → g'.decisions id = some d

namespace Gate

theorem Sound.empty : (Gate.empty : Gate env).Sound := ⟨nofun, nofun⟩

theorem Later.refl (g : Gate env) : g.Later g :=
  ⟨fun _ _ h => h, fun _ _ h => h, fun _ _ h => h⟩

theorem Later.trans {a b c : Gate env} (hab : a.Later b) (hbc : b.Later c) : a.Later c where
  manifests id m hm := hbc.manifests id m (hab.manifests id m hm)
  requests id r hr := hbc.requests id r (hab.requests id r hr)
  decisions id d hd := hbc.decisions id d (hab.decisions id d hd)

end Gate

variable {id key : Str} {α : Type} {value x : α}

theorem update_keeps {table : Str → Option α} (hFree : table key = none)
    (hThere : table id = some x) : update table key (some value) id = some x := by
  rw [update_of_ne, hThere]
  rintro rfl
  rw [hFree] at hThere
  cases hThere

theorem update_origin {table : Str → Option α}
    (hThere : update table key (some value) id = some x) :
    (id = key ∧ x = value) ∨ table id = some x := by
  by_cases hKey : id = key
  · subst hKey
    rw [update_self] at hThere
    exact .inl ⟨rfl, (Option.some.inj hThere).symm⟩
  · rw [update_of_ne hKey] at hThere
    exact .inr hThere

theorem GateStep.later (hStep : GateStep g g') : g.Later g' := by
  cases hStep with
  | stays => exact .refl g
  | binds hFree => exact ⟨fun _ _ => update_keeps hFree, fun _ _ h => h, fun _ _ h => h⟩
  | asks _ _ hFree => exact ⟨fun _ _ h => h, fun _ _ => update_keeps hFree, fun _ _ h => h⟩
  | decides _ _ hFree => exact ⟨fun _ _ h => h, fun _ _ h => h, fun _ _ => update_keeps hFree⟩

/-- What holds of the entries of a gate holds of them in a later one. -/
theorem GateStep.sound (hSound : g.Sound) (hStep : GateStep g g') : g'.Sound := by
  have hLater := hStep.later
  -- what was stored refers to what was stored, and all of that is still there
  have hOldRequest : ∀ {id : Str} {r : Request}, g.requests id = some r → r.val.requestId = id ∧
      ∃ m, g'.manifests r.val.taskId = some m ∧
        m.val.manifestDigest = r.val.bindingManifestDigest := by
    intro id r hr
    obtain ⟨hId, m, hm, hDigest⟩ := hSound.request hr
    exact ⟨hId, m, hLater.manifests _ _ hm, hDigest⟩
  have hOldDecision : ∀ {id : Str} {d : Decision}, g.decisions id = some d →
      d.val.requestId = id ∧ ∃ r, g'.requests id = some r ∧ d.val.matches r.val = true := by
    intro id d hd
    obtain ⟨hId, r, hr, hMatch⟩ := hSound.decision hd
    exact ⟨hId, r, hLater.requests _ _ hr, hMatch⟩
  cases hStep with
  | stays => exact hSound
  | binds hFree => exact ⟨hOldRequest, hOldDecision⟩
  | @asks r m hm hDigest hFree =>
    refine ⟨fun hThere => ?_, hOldDecision⟩
    rcases update_origin hThere with ⟨rfl, rfl⟩ | hThere
    · exact ⟨rfl, m, hm, hDigest⟩
    · exact hOldRequest hThere
  | @decides d r hr hMatch hFree =>
    refine ⟨hOldRequest, fun hThere => ?_⟩
    rcases update_origin hThere with ⟨rfl, rfl⟩ | hThere
    · exact ⟨rfl, r, hr, hMatch⟩
    · exact hOldDecision hThere

/-! ## Calls of the gate in memory -/

section StoreOnce

variable {α : Type} [DecidableEq α] {table table' : Str → Option α} {key : Str} {value x : α}

theorem storeOnce_free (hFree : table key = none) :
    storeOnce table key value = .ok (update table key (some value)) := by
  rw [storeOnce, hFree]

theorem storeOnce_there (hThere : table key = some x) : storeOnce table key value =
    if some x = some value then .ok table else .error .conflict := by
  rw [storeOnce, hThere]
  simp only [Option.some.injEq]

theorem storeOnce_ok (hOk : storeOnce table key value = .ok table') :
    table' = table ∨ table key = none ∧ table' = update table key (some value) := by
  cases hThere : table key with
  | none =>
    rw [storeOnce_free hThere] at hOk
    exact .inr ⟨rfl, (Except.ok.inj hOk).symm⟩
  | some x =>
    rw [storeOnce_there hThere] at hOk
    split at hOk
    · exact .inl (Except.ok.inj hOk).symm
    · cases hOk

end StoreOnce

variable {call : GateCall env} {a : GateAnswer env}

theorem answer_step (hOk : g.answer call = .ok (a, g')) : GateStep g g' := by
  cases call with
  | bindTask m =>
    obtain ⟨table, hStore, hEq⟩ := bind_ok.mp hOk
    cases hEq
    rcases storeOnce_ok hStore with rfl | ⟨hFree, rfl⟩
    · exact .stays
    · exact .binds hFree
  | assertTaskBindings taskId bindings exact allowUnbound =>
    obtain ⟨-, -, hEq⟩ := bind_ok.mp hOk
    cases hEq
    exact .stays
  | getTaskBinding taskId | getRequest requestId | getDecision requestId =>
    cases hOk
    exact .stays
  | createRequest r =>
    obtain ⟨hBound, hOk⟩ := ensure_bind_ok.mp hOk
    obtain ⟨m, hm, hDigest⟩ := (Option.any_eq_true _ _).mp hBound
    obtain ⟨table, hStore, hEq⟩ := bind_ok.mp hOk
    cases hEq
    rcases storeOnce_ok hStore with rfl | ⟨hFree, rfl⟩
    · exact .stays
    · exact .asks hm (of_decide_eq_true hDigest) hFree
  | recordDecision d =>
    obtain ⟨hAsked, hOk⟩ := ensure_bind_ok.mp hOk
    obtain ⟨r, hr, hMatch⟩ := (Option.any_eq_true _ _).mp hAsked
    obtain ⟨table, hStore, hEq⟩ := bind_ok.mp hOk
    cases hEq
    rcases storeOnce_ok hStore with rfl | ⟨hFree, rfl⟩
    · exact .stays
    · exact .decides hr hMatch hFree

/-! ## The tables as a gate -/

section Checked

variable {ρ : Type} {valid : ρ → Bool} {rows : Str → Option ρ} {id : Str}

/-- The values that rows stand for. -/
def standFor (valid : ρ → Bool) (rows : Str → Option ρ) (id : Str) :
    Option { row : ρ // valid row = true } :=
  (rows id).bind fun row => if hValid : valid row = true then some ⟨row, hValid⟩ else none

def Pass (valid : ρ → Bool) (rows : Str → Option ρ) : Prop :=
  ∀ (id : Str) (row : ρ), rows id = some row → valid row = true

theorem standFor_some (hPass : Pass valid rows) {row : ρ} (hFound : rows id = some row) :
    standFor valid rows id = some ⟨row, hPass id row hFound⟩ := by
  rw [standFor, hFound, Option.bind_some, dif_pos]

theorem standFor_none (hPass : Pass valid rows) :
    standFor valid rows id = none ↔ rows id = none := by
  cases hFound : rows id with
  | none =>
    refine iff_of_true ?_ rfl
    rw [standFor, hFound]
    rfl
  | some row =>
    rw [standFor_some hPass hFound]
    simp

theorem standFor_update (value : { row : ρ // valid row = true }) (key : Str) :
    standFor valid (update rows key (some value.val)) =
      update (standFor valid rows) key (some value) := by
  funext id
  rw [standFor]
  by_cases hKey : id = key
  · rw [hKey, update_self, update_self, Option.bind_some, dif_pos value.2]
  · rw [update_of_ne hKey, update_of_ne hKey, standFor]

theorem Pass.update (hPass : Pass valid rows) (value : { row : ρ // valid row = true })
    (key : Str) : Pass valid (update rows key (some value.val)) := by
  intro id row hRow
  rcases update_origin hRow with ⟨-, rfl⟩ | hRow
  · exact value.2
  · exact hPass id row hRow

theorem run_select (rows : Db → Str → Option ρ) (hPass : Pass valid (rows s)) (id : Str) :
    (select valid fun s => rows s id).run s = (.ok (standFor valid (rows s) id), s) := by
  rw [select, run_bind_ok (run_read _ s), run_ofExcept]
  cases hRow : rows s id with
  | none => rw [(standFor_none hPass).mpr hRow, loaded]
  | some row => rw [standFor_some hPass hRow, loaded, dif_pos]

end Checked

namespace Db

def gate (env : GateEnv) (s : Db) : Gate env where
  manifests := standFor (ManifestRow.valid env) s.manifests.find
  requests := standFor RequestRow.valid s.request
  decisions := standFor DecisionRow.valid s.decision

structure Valid (env : GateEnv) (s : Db) : Prop where
  manifests : Pass (ManifestRow.valid env) s.manifests.find
  requests : Pass RequestRow.valid s.request
  decisions : Pass DecisionRow.valid s.decision

theorem gate_empty (env : GateEnv) (tasks : List TaskRow) :
    (Db.empty tasks).gate env = Gate.empty := rfl

theorem Valid.empty (env : GateEnv) (tasks : List TaskRow) : (Db.empty tasks).Valid env :=
  ⟨nofun, nofun, nofun⟩

theorem gate_eq {manifests : Str → Option ManifestRow} {requests : Str → Option RequestRow}
    {decisions : Str → Option DecisionRow} (hManifests : s.manifests.find = manifests)
    (hRequests : s.request = requests) (hDecisions : s.decision = decisions) :
    s.gate env = ⟨standFor _ manifests, standFor _ requests, standFor _ decisions⟩ := by
  rw [gate, hManifests, hRequests, hDecisions]

end Db

theorem run_getManifest (hValid : s.Valid env) (taskId : Str) :
    (getManifest taskId).run s = (.ok ((s.gate env).manifests taskId), s) :=
  run_select (fun s => s.manifests.find) hValid.manifests taskId

theorem run_getRequest (hValid : s.Valid env) (requestId : Str) :
    (getRequest requestId).run s = (.ok ((s.gate env).requests requestId), s) :=
  run_select Db.request hValid.requests requestId

theorem run_getDecision (hValid : s.Valid env) (requestId : Str) :
    (getDecision requestId).run s = (.ok ((s.gate env).decisions requestId), s) :=
  run_select Db.decision hValid.decisions requestId

/-! ## Transactions -/

/-- What a transaction that may write does: nothing, or a step of the gate that the
tables stand for. -/
inductive Writes (env : GateEnv) (after : Gate env) (s : Db) : Bool → Db → Prop
  | nothing : Writes env after s false s
  | value {s' : Db} : s'.Valid env → s'.tasks = s.tasks → s'.gate env = after →
      GateStep (s.gate env) after → Writes env after s true s'

variable {ρ : Type} {e : GateError}

theorem find_inserted {key : ρ → Str} {rows rows' : Keyed key} {row : ρ}
    (hInsert : rows.insert row e = .ok rows') :
    rows'.find = update rows.find (key row) (some row) := by
  funext id
  rw [(Keyed.find_insert hInsert).2 id, update_apply]

variable {m : Manifest env}

theorem insertManifest_writes (hValid : s.Valid env) (hFree : s.manifests.find m.val.taskId = none)
    {manifests : Keyed ManifestRow.taskId}
    (hInsert : s.manifests.insert m.val GateError.conflict = .ok manifests) :
    Writes env ((s.gate env).bound m) s true { s with manifests } := by
  have hNew := find_inserted hInsert
  refine .value ⟨?_, hValid.requests, hValid.decisions⟩ rfl ?_
    (.binds ((standFor_none hValid.manifests).mpr hFree))
  · show Pass _ manifests.find
    rw [hNew]
    exact hValid.manifests.update m _
  · rw [Db.gate_eq hNew rfl rfl, standFor_update]
    rfl

variable {r : Request}

theorem insertRequest_writes (hValid : s.Valid env)
    (hBound : (s.manifests.find r.val.taskId).any fun m =>
      decide (m.manifestDigest = r.val.bindingManifestDigest))
    (hFree : s.requests.find r.val.requestId = none) {requests : Keyed GateRow.requestId}
    (hInsert : s.requests.insert ⟨r.val, none⟩ GateError.conflict = .ok requests) :
    Writes env ((s.gate env).asked r) s true { s with requests } := by
  obtain ⟨m, hm, hDigest⟩ := (Option.any_eq_true _ _).mp hBound
  have hFind : requests.find = update s.requests.find r.val.requestId (some ⟨r.val, none⟩) :=
    find_inserted hInsert
  have hRequest : Db.request { s with requests } =
      update s.request r.val.requestId (some r.val) := by
    funext id
    simp only [Db.request, hFind, update_apply]
    split <;> rfl
  -- a new request is undecided, so the decisions are what they were
  have hDecision : Db.decision { s with requests } = s.decision := by
    funext id
    simp only [Db.decision, hFind, update_apply]
    split
    · rw [‹id = _›, hFree]
      rfl
    · rfl
  have hNone : s.request r.val.requestId = none := by
    rw [Db.request, hFree]
    rfl
  refine .value ⟨hValid.manifests, ?_, ?_⟩ rfl ?_ (.asks (standFor_some hValid.manifests hm)
    (of_decide_eq_true hDigest) ((standFor_none hValid.requests).mpr hNone))
  · rw [hRequest]
    exact hValid.requests.update r _
  · rw [hDecision]
    exact hValid.decisions
  · rw [Db.gate_eq rfl hRequest hDecision, standFor_update]
    rfl

variable {row : GateRow}

theorem GateRow.admits_iff {d : DecisionRow} : row.admits d = true ↔
    row.requestId = d.requestId ∧ d.matches row.request = true ∧ row.decided = none := by
  -- the conditions of the `UPDATE` are those of the port with their sides exchanged
  unfold GateRow.admits DecisionRow.matches GateRow.requestId
  simp only [decide_eq_true_eq, ge_iff_le, Option.isNone_iff_eq_none]
  constructor
  · rintro ⟨hId, hTask, hUser, hSession, hTenant, hRequest, hBinding, hFrom, hUntil, hNone⟩
    exact ⟨hId, ⟨hTask.symm, hUser.symm, hSession.symm, hTenant.symm, hRequest.symm,
      hBinding.symm, hFrom, hUntil⟩, hNone⟩
  · rintro ⟨hId, ⟨hTask, hUser, hSession, hTenant, hRequest, hBinding, hFrom, hUntil⟩, hNone⟩
    exact ⟨hId, hTask.symm, hUser.symm, hSession.symm, hTenant.symm, hRequest.symm,
      hBinding.symm, hFrom, hUntil, hNone⟩

theorem GateRow.decision_decide {d : DecisionRow} (hId : row.requestId = d.requestId)
    (hMatch : d.matches row.request = true) : (row.decide d).decision = some d := by
  -- the `UPDATE` stores neither the task nor the digests: they are read off the request
  obtain ⟨hTask, -, -, -, hRequest, hBinding, -, -⟩ := of_decide_eq_true hMatch
  rw [GateRow.requestId] at hId
  rw [GateRow.decision, GateRow.decide]
  simp only [Option.map_some, hId, ← hTask, ← hRequest, ← hBinding]

variable {d : Decision}

theorem updateDecision_writes (hValid : s.Valid env)
    (hFound : s.requests.find d.val.requestId = some row) (hAdmits : row.admits d.val = true) :
    Writes env ((s.gate env).decided d) s true { s with
      requests := s.requests.update d.val.requestId (GateRow.decide d.val)
        (GateRow.requestId_decide d.val) } := by
  obtain ⟨hId, hMatch, hNone⟩ := GateRow.admits_iff.mp hAdmits
  generalize hNew : s.requests.update d.val.requestId (GateRow.decide d.val)
    (GateRow.requestId_decide d.val) = requests
  have hFind : ∀ id, requests.find id = if id = d.val.requestId then
      (s.requests.find id).map (GateRow.decide d.val) else s.requests.find id := by
    rw [← hNew]
    exact fun _ => Keyed.find_update
  -- the columns of the request are not written
  have hRequest : Db.request { s with requests } = s.request := by
    funext id
    simp only [Db.request, hFind id]
    split
    · rw [Option.map_map]
      rfl
    · rfl
  have hDecision : Db.decision { s with requests } =
      update s.decision d.val.requestId (some d.val) := by
    funext id
    simp only [Db.decision, hFind id, update_apply]
    split
    · rw [‹id = _›, hFound, Option.map_some, Option.bind_some, GateRow.decision_decide hId hMatch]
    · rfl
  have hAsked : s.request d.val.requestId = some row.request := by
    rw [Db.request, hFound]
    rfl
  have hUndecided : s.decision d.val.requestId = none := by
    rw [Db.decision, hFound, Option.bind_some, GateRow.decision, hNone]
    rfl
  refine .value ⟨hValid.manifests, ?_, ?_⟩ rfl ?_ (.decides (standFor_some hValid.requests hAsked)
    hMatch ((standFor_none hValid.decisions).mpr hUndecided))
  · rw [hRequest]
    exact hValid.requests
  · rw [hDecision]
    exact hValid.decisions.update d _
  · rw [Db.gate_eq rfl hRequest hDecision, standFor_update]
    rfl

variable {inserted : Bool}

theorem insertManifest_ok (hValid : s.Valid env)
    (hOk : s.insertManifest m.val = .ok (inserted, s')) :
    Writes env ((s.gate env).bound m) s inserted s' := by
  unfold Db.insertManifest at hOk
  split at hOk
  · cases hOk
    exact .nothing
  · rename_i hFree
    obtain ⟨-, hOk⟩ := ensure_bind_ok.mp hOk
    obtain ⟨manifests, hInsert, hEq⟩ := bind_ok.mp hOk
    cases hEq
    exact insertManifest_writes hValid hFree hInsert

theorem insertRequest_ok (hValid : s.Valid env) (hOk : s.insertRequest r.val = .ok (inserted, s')) :
    Writes env ((s.gate env).asked r) s inserted s' := by
  unfold Db.insertRequest at hOk
  split at hOk
  · rename_i hFree
    obtain ⟨hBound, hOk⟩ := ensure_bind_ok.mp hOk
    obtain ⟨requests, hInsert, hEq⟩ := bind_ok.mp hOk
    cases hEq
    exact insertRequest_writes hValid hBound hFree hInsert
  · cases hOk
    exact .nothing

theorem updateDecision_ok {updated : Bool} (hValid : s.Valid env)
    (hOk : s.updateDecision d.val = .ok (updated, s')) :
    Writes env ((s.gate env).decided d) s updated s' := by
  unfold Db.updateDecision at hOk
  split at hOk
  · rename_i hAny
    obtain ⟨row, hFound, hAdmits⟩ := (Option.any_eq_true _ _).mp hAny
    cases hOk
    exact updateDecision_writes hValid hFound hAdmits
  · cases hOk
    exact .nothing

/-! ## One call after the other -/

structure Follows (tasks : List TaskRow) (g : Gate env) (s : Db) : Prop where
  valid : s.Valid env
  tasks : s.tasks = tasks
  gate : s.gate env = g
  sound : g.Sound

/-- Two calls have ended alike. -/
def Alike (tasks : List TaskRow) (x : Except GateError (GateAnswer env) × Gate env)
    (y : Except GateError (GateAnswer env) × Db) : Prop :=
  x.1 = y.1 ∧ Follows tasks x.2 y.2

variable {tasks : List TaskRow} {a : GateAnswer env}

theorem Alike.written (hFollows : Follows tasks g s) (hWrites : Writes env g' s true s') :
    Alike tasks (.ok a, g') (.ok a, s') := by
  cases hWrites with
  | value hValid hTasks hGate hStep =>
    rw [hFollows.gate] at hStep
    exact ⟨rfl, hValid, hTasks.trans hFollows.tasks, hGate, hStep.sound hFollows.sound⟩

theorem Alike.unwritten (hFollows : Follows tasks g s) {r : Except GateError (GateAnswer env)} :
    Alike tasks (r, g) (r, s) :=
  ⟨rfl, hFollows⟩

theorem run_inMemory_ok (hOk : g.answer call = .ok (a, g')) :
    (inMemory call).run g = (.ok a, g') := by
  rw [inMemory, run_atomic, hOk]

theorem run_inMemory_error (hFails : g.answer call = .error e) :
    (inMemory call).run g = (.error e, g) := by
  rw [inMemory, run_atomic, hFails]

section WriteOnce

variable {α : Type} [DecidableEq α] {wrote : Bool → Bool} {f : Db → Except GateError (Bool × Db)}
  {value : α} {reload : Prog Db GateError (Option α)}

/-- The part that the calls that write have in common: one transaction, and where it wrote
nothing, a look at what is there. -/
def writeOnce (ack : Ack) (wrote : Bool → Bool) (f : Db → Except GateError (Bool × Db))
    (value : α) (reload : Prog Db GateError (Option α)) (a : GateAnswer env) :
    Prog Db GateError (GateAnswer env) := do
  let written ← transact ack .unavailable .unavailable wrote f
  writtenOr value reload written
  pure a

theorem run_written (hf : f s = .ok (true, s')) :
    (writeOnce .delivered wrote f value reload a).run s = (.ok a, s') := by
  have hCommit : (Prog.atomic f).run s = (.ok true, s') := by
    rw [run_atomic, hf]
  exact run_bind_ok hCommit

theorem run_unwritten (hf : f s = .ok (false, s)) {found : Option α}
    (hReload : reload.run s = (.ok found, s)) :
    (writeOnce .delivered wrote f value reload a).run s =
      (if found = some value then .ok a else .error .conflict, s) := by
  have hCommit : (Prog.atomic f).run s = (.ok false, s) := by
    rw [run_atomic, hf]
  have hSame : (writtenOr value reload false).run s =
      (if found = some value then .ok () else .error .conflict, s) := by
    rw [writtenOr, run_bind_ok hReload, run_require]
  show (Prog.atomic f >>= fun written =>
    writtenOr value reload written >>= fun _ => pure a).run s = _
  rw [run_bind_ok hCommit]
  by_cases hFound : found = some value
  · rw [if_pos hFound] at hSame ⊢
    exact run_bind_ok hSame
  · rw [if_neg hFound] at hSame ⊢
    exact run_bind_error hSame

/-- A value that is stored once in memory, and written where nothing is there in the
tables. -/
theorem stored_alike {table : Str → Option α} (upd : (Str → Option α) → Gate env)
    (hFollows : Follows tasks g s) (hSelf : upd table = g) (hAnswer : g.answer call = do
      let table ← storeOnce table key value
      pure (a, upd table)) (hReload : reload.run s = (.ok (table key), s))
    (hFree : table key = none → ∃ s', f s = .ok (true, s') ∧
      Writes env (upd (update table key (some value))) s true s')
    (hTaken : table key ≠ none → f s = .ok (false, s)) :
    Alike tasks ((inMemory call).run g) ((writeOnce .delivered wrote f value reload a).run s) := by
  cases hThere : table key with
  | none =>
    obtain ⟨s', hf, hWrites⟩ := hFree hThere
    rw [storeOnce_free hThere] at hAnswer
    rw [run_inMemory_ok hAnswer, run_written hf]
    exact .written hFollows hWrites
  | some x =>
    -- nothing is written on either side; the stored value is the submitted one, or a conflict
    rw [storeOnce_there hThere] at hAnswer
    rw [hThere] at hReload
    rw [run_unwritten (hTaken (by rw [hThere]; nofun)) hReload]
    by_cases hSame : some x = some value
    · rw [if_pos hSame] at hAnswer ⊢
      have hStays : g.answer call = .ok (a, g) := by
        rw [hAnswer, ← hSelf]
        rfl
      rw [run_inMemory_ok hStays]
      exact .unwritten hFollows
    · rw [if_neg hSame] at hAnswer ⊢
      rw [run_inMemory_error hAnswer]
      exact .unwritten hFollows

end WriteOnce

section

variable (hFollows : Follows tasks g s)

include hFollows

theorem Follows.manifest_none : g.manifests id = none ↔ s.manifests.find id = none :=
  hFollows.gate ▸ standFor_none hFollows.valid.manifests

theorem Follows.request_none : g.requests id = none ↔ s.requests.find id = none := by
  rw [← hFollows.gate]
  exact (standFor_none hFollows.valid.requests).trans Option.map_eq_none_iff

theorem bindTask_alike (hRow : tasks.any fun t => decide (t.taskId = m.val.taskId)) :
    Alike tasks ((inMemory (.bindTask m)).run g) ((bindTask .delivered m).run s) := by
  obtain rfl := hFollows.gate
  have hReload := run_getManifest hFollows.valid m.val.taskId
  refine stored_alike (fun manifests => { s.gate env with manifests }) hFollows rfl rfl hReload
    (fun hFree => ?_) fun hTaken => ?_
  · have hNone := hFollows.manifest_none.mp hFree
    obtain ⟨manifests, hInsert⟩ := Keyed.insert_fresh s.manifests GateError.conflict hNone
    refine ⟨_, ?_, insertManifest_writes hFollows.valid hNone hInsert⟩
    rw [Db.insertManifest, hNone]
    simp only [hFollows.tasks, hRow, ensure, if_true, hInsert]
    rfl
  · obtain ⟨row, hFound⟩ := Option.ne_none_iff_exists'.mp
      (fun hNone => hTaken (hFollows.manifest_none.mpr hNone))
    rw [Db.insertManifest, hFound]

theorem Follows.bound {digest : Str}
    (hBound : (g.manifests id).any fun m => decide (m.val.manifestDigest = digest)) :
    (s.manifests.find id).any fun m => decide (m.manifestDigest = digest) := by
  obtain rfl := hFollows.gate
  obtain ⟨m, hm, hDigest⟩ := (Option.any_eq_true _ _).mp hBound
  obtain ⟨row, hFound⟩ := Option.ne_none_iff_exists'.mp fun hNone => by
    rw [hFollows.manifest_none.mpr hNone] at hm
    cases hm
  cases hm.symm.trans (standFor_some hFollows.valid.manifests hFound)
  rw [hFound]
  exact hDigest

theorem createRequest_alike (hRow : tasks.any (TaskRow.owns r.val)) :
    Alike tasks ((inMemory (.createRequest r)).run g) ((createRequest .delivered r).run s) := by
  obtain rfl := hFollows.gate
  have hReload := run_getRequest hFollows.valid r.val.requestId
  -- the manifest is read in a session of its own, before the transaction
  rw [createRequest, run_bind_ok (run_getManifest hFollows.valid r.val.taskId)]
  by_cases hBound : ((s.gate env).manifests r.val.taskId).any fun m =>
      decide (m.val.manifestDigest = r.val.bindingManifestDigest)
  · rw [Prog.require, if_pos hBound, bind_ret]
    refine stored_alike (fun requests => { s.gate env with requests }) hFollows rfl ?_ hReload
      (fun hFree => ?_) fun hTaken => ?_
    · rw [Gate.answer, Gate.createRequest, ensure, if_pos hBound]
      rfl
    · -- the id is free: `SELECT … FROM tasks` finds the row of the task, and the foreign key
      -- to the manifest holds by the check that was made outside the transaction
      have hNone := hFollows.request_none.mp hFree
      have hDigest := hFollows.bound hBound
      obtain ⟨requests, hInsert⟩ :
          ∃ t, s.requests.insert ⟨r.val, none⟩ GateError.conflict = .ok t :=
        Keyed.insert_fresh s.requests GateError.conflict hNone
      refine ⟨_, ?_, insertRequest_writes hFollows.valid hDigest hNone hInsert⟩
      rw [Db.insertRequest, hFollows.tasks, hRow, hNone]
      simp only [hDigest, ensure, if_true, hInsert]
      rfl
    · -- the id is taken: `ON CONFLICT DO NOTHING`
      obtain ⟨row, hFound⟩ := Option.ne_none_iff_exists'.mp
        (fun hNone => hTaken (hFollows.request_none.mpr hNone))
      rw [Db.insertRequest, hFollows.tasks, hRow, hFound]
  · -- a request for another manifest than the bound one: both gates refuse before they write
    have hFails : (s.gate env).answer (.createRequest r) = .error .conflict := by
      rw [Gate.answer, Gate.createRequest, ensure, if_neg hBound]
      rfl
    rw [Prog.require, if_neg hBound, run_inMemory_error hFails]
    exact .unwritten hFollows

theorem Follows.admits {d : DecisionRow} :
    ((s.requests.find d.requestId).any fun row => row.admits d) = true ↔
      ((g.requests d.requestId).any fun r => d.matches r.val) = true ∧
        g.decisions d.requestId = none := by
  obtain rfl := hFollows.gate
  have hDecisions : (s.gate env).decisions d.requestId = none ↔ s.decision d.requestId = none :=
    standFor_none hFollows.valid.decisions
  rw [hDecisions]
  -- request and decision are two columns of one row, and two dictionaries in memory
  cases hFound : s.requests.find d.requestId with
  | none =>
    rw [hFollows.request_none.mpr hFound]
    simp
  | some row =>
    have hAsked : s.request d.requestId = some row.request := by
      rw [Db.request, hFound]
      rfl
    have hThere : (s.gate env).requests d.requestId = some ⟨row.request, _⟩ :=
      standFor_some hFollows.valid.requests hAsked
    have hNone : s.decision d.requestId = none ↔ row.decided = none := by
      rw [Db.decision, hFound, Option.bind_some, GateRow.decision, Option.map_eq_none_iff]
    rw [hThere, hNone]
    exact GateRow.admits_iff.trans (and_iff_right (lookup_key hFound))

theorem recordDecision_alike :
    Alike tasks ((inMemory (.recordDecision d)).run g) ((recordDecision .delivered d).run s) := by
  obtain rfl := hFollows.gate
  have hReload := run_getDecision hFollows.valid d.val.requestId
  by_cases hAsked : ((s.gate env).requests d.val.requestId).any fun r => d.val.matches r.val
  · refine stored_alike (fun decisions => { s.gate env with decisions }) hFollows rfl ?_ hReload
      (fun hFree => ?_) fun hTaken => ?_
    · rw [Gate.answer, Gate.recordDecision, ensure, if_pos hAsked]
      rfl
    · have hAny := hFollows.admits.mpr ⟨hAsked, hFree⟩
      obtain ⟨row, hFound, hAdmits⟩ := (Option.any_eq_true _ _).mp hAny
      refine ⟨_, ?_, updateDecision_writes hFollows.valid hFound hAdmits⟩
      rw [Db.updateDecision, if_pos hAny]
    · rw [Db.updateDecision, if_neg fun hAny => hTaken (hFollows.admits.mp hAny).2]
  · -- what is stored was made for the request, so it is not this decision
    have hOther : (s.gate env).decisions d.val.requestId ≠ some d := by
      intro hThere
      obtain ⟨-, r, hr, hMatch⟩ := hFollows.sound.decision hThere
      rw [hr] at hAsked
      exact hAsked hMatch
    have hf : s.updateDecision d.val = .ok (false, s) := by
      rw [Db.updateDecision, if_neg fun hAny => hAsked (hFollows.admits.mp hAny).1]
    have hFails : (s.gate env).answer (.recordDecision d) = .error .conflict := by
      rw [Gate.answer, Gate.recordDecision, ensure, if_neg hAsked]
      rfl
    rw [show (recordDecision .delivered d).run s = _ from run_unwritten hf hReload,
      if_neg hOther, run_inMemory_error hFails]
    exact .unwritten hFollows

end

/-- The rows that the tables need for a call: the task of a manifest, and the task of a
request with its user and session. -/
def GateCall.Rowed (tasks : List TaskRow) : GateCall env → Prop
  | .bindTask m => ∃ t ∈ tasks, t.taskId = m.val.taskId
  | .createRequest r => ∃ t ∈ tasks, TaskRow.owns r.val t = true
  | _ => True

theorem read_alike {p : Prog Db GateError α} (answer : α → GateAnswer env)
    (hFollows : Follows tasks g s) (hp : p.run s = (.ok x, s))
    (hOk : g.answer call = .ok (answer x, g)) :
    Alike tasks ((inMemory call).run g) ((p >>= fun x => pure (answer x)).run s) := by
  rw [run_bind_ok hp, run_inMemory_ok hOk]
  exact .unwritten hFollows

theorem call_alike (hRowed : call.Rowed tasks) (hFollows : Follows tasks g s) :
    Alike tasks ((inMemory call).run g) ((postgreSQL .delivered call).run s) := by
  obtain rfl := hFollows.gate
  have hManifest := run_getManifest hFollows.valid
  cases call with
  | bindTask m =>
    obtain ⟨t, ht, hTask⟩ := hRowed
    exact bindTask_alike hFollows (any_eq_true.mpr ⟨t, ht, decide_eq_true hTask⟩)
  | createRequest r =>
    obtain ⟨t, ht, hOwns⟩ := hRowed
    exact createRequest_alike hFollows (any_eq_true.mpr ⟨t, ht, hOwns⟩)
  | recordDecision d => exact recordDecision_alike hFollows
  | assertTaskBindings taskId bindings exact allowUnbound =>
    rw [postgreSQL, run_bind_ok (hManifest taskId)]
    rw [inMemory, run_atomic, Gate.answer]
    cases assertManifest bindings exact allowUnbound ((s.gate env).manifests taskId) with
    | ok u => exact .unwritten hFollows
    | error e => exact .unwritten hFollows
  | getTaskBinding taskId => exact read_alike .manifest hFollows (hManifest taskId) rfl
  | getRequest requestId =>
    exact read_alike .request hFollows (run_getRequest hFollows.valid requestId) rfl
  | getDecision requestId =>
    exact read_alike .decision hFollows (run_getDecision hFollows.valid requestId) rfl

theorem answers_alike {calls : List (GateCall env)} (hRowed : ∀ call ∈ calls, call.Rowed tasks)
    (hFollows : Follows tasks g s) :
    Prog.answers inMemory calls g = Prog.answers (postgreSQL .delivered) calls s :=
  answers_eq (Follows tasks)
    (fun call hCall _ _ hFollows => call_alike (hRowed call hCall) hFollows) _ _ hFollows

/-! ## Interleavings -/

def gateStep : List (Gate env) → Gate env → Prop
  | g :: _, g' => GateStep g g'
  | [], _ => False

/-- A step of the tables: the rows stay as the checks want them, and the gate that they
stand for makes a step. -/
def DbStep (env : GateEnv) (s s' : Db) : Prop :=
  s.Valid env → s'.Valid env ∧ GateStep (s.gate env) (s'.gate env)

def dbStep (env : GateEnv) : List Db → Db → Prop
  | s :: _, s' => DbStep env s s'
  | [], _ => False

variable {h : List (Gate env)}

theorem MemoryRun.steps {ps : Procs (Gate env) GateError} (hRun : MemoryRun env h ps) :
    Run (· = Gate.empty) gateStep h := by
  refine (PoolRun.refines (fun _ _ _ hFalse => hFalse.elim) (fun _ _ _ => .stays) ?_ hRun).1
  rintro - - ⟨call, rfl⟩ h -
  refine Safe.of_moves (fun _ _ _ hStep => hStep) (Prog.Moves.seq ?_ fun _ => ?_) h
  · exact Prog.Moves.atomic (fun _ => .stays) fun _ _ _ hOk => answer_step hOk
  · exact trivial

theorem DbStep.refl (s : Db) : DbStep env s s := fun hValid => ⟨hValid, .stays⟩

theorem Writes.dbStep {after : Gate env} {written : Bool}
    (hWrites : s.Valid env → Writes env after s written s') : DbStep env s s' := by
  intro hValid
  cases hWrites hValid with
  | nothing => exact ⟨hValid, .stays⟩
  | value hValid' _ hGate hStep =>
    rw [← hGate] at hStep
    exact ⟨hValid', hStep⟩

theorem select_moves {valid : ρ → Bool} {row : Db → Option ρ} :
    (select valid row).Moves (DbStep env) :=
  (Prog.Moves.read .refl _).seq fun _ => .ofExcept _

variable {ack : Ack}

theorem writeOnce_moves [DecidableEq α] {wrote : Bool → Bool}
    {f : Db → Except GateError (Bool × Db)} {reload : Prog Db GateError (Option α)}
    {after : Db → Gate env} (hReload : reload.Moves (DbStep env))
    (hf : ∀ s written s', s.Valid env → f s = .ok (written, s') →
      Writes env (after s) s written s') :
    (writeOnce ack wrote f value reload a).Moves (DbStep env) := by
  refine Prog.Moves.seq ?_ fun written => Prog.Moves.seq ?_ fun _ => ?_
  · exact Prog.Moves.transact .refl fun s written s' hOk =>
      Writes.dbStep fun hValid => hf s written s' hValid hOk
  · cases written with
    | true => exact trivial
    | false => exact hReload.seq fun _ => .require _ _
  · exact trivial

theorem postgreSQL_moves (call : GateCall env) : (postgreSQL ack call).Moves (DbStep env) := by
  cases call with
  | bindTask m =>
    exact writeOnce_moves select_moves fun _ _ _ hValid hOk => insertManifest_ok hValid hOk
  | assertTaskBindings taskId bindings exact allowUnbound =>
    exact select_moves.seq fun _ => (Prog.Moves.ofExcept _).seq fun _ => trivial
  | getTaskBinding taskId | getRequest requestId | getDecision requestId =>
    exact select_moves.seq fun _ => trivial
  | createRequest r =>
    refine select_moves.seq fun _ => (Prog.Moves.require _ _).seq fun _ => ?_
    exact writeOnce_moves select_moves fun _ _ _ hValid hOk => insertRequest_ok hValid hOk
  | recordDecision d =>
    exact writeOnce_moves select_moves fun _ _ _ hValid hOk => updateDecision_ok hValid hOk

variable {ps : Procs Db GateError}

theorem DbRun.steps {h : List Db} (hRun : DbRun env h ps) :
    Run (fun s => ∃ tasks, s = Db.empty tasks) (dbStep env) h := by
  refine (PoolRun.refines ?_ (fun _ s _ => DbStep.refl s) ?_ hRun).1
  · -- other tasks are no part of the gate
    rintro s t s' ⟨tasks, -, rfl⟩ hValid
    exact ⟨⟨hValid.manifests, hValid.requests, hValid.decisions⟩, .stays⟩
  · rintro - - ⟨ack, call, rfl⟩ h -
    refine Safe.of_moves (fun _ _ _ hStep => hStep)
      ((postgreSQL_moves call).seq fun _ => ?_) h
    exact trivial

theorem db_valid {h : List Db} (hRun : Run (fun s => ∃ tasks, s = Db.empty tasks) (dbStep env) h) :
    ∀ s ∈ h, s.Valid env := by
  refine Run.mem_inv ?_ (fun s t s' hValid hStep => (hStep hValid).1) hRun
  rintro s ⟨tasks, rfl⟩
  exact .empty env tasks

theorem DbRun.gates {h : List Db} (hRun : DbRun env h ps) :
    Run (· = Gate.empty) gateStep (h.map (Db.gate env)) := by
  refine Run.map (Db.gate env) ?_ ?_ hRun.steps
  · rintro s ⟨tasks, rfl⟩
    exact Db.gate_empty env tasks
  · intro s t s' hBefore hStep
    exact (hStep (db_valid hBefore s mem_cons_self)).2

/-! ## What is stored stays, and is right -/

/-- A decision was made for the request, on the manifest of its task. -/
structure MadeFor (d : DecisionRow) (r : RequestRow) (m : ManifestRow) : Prop where
  request : d.requestId = r.requestId
  task : d.taskId = r.taskId
  /-- By the person that was asked, in the session and for the tenant. -/
  actor : d.decidedByAiUserId = r.requestedForAiUserId ∧
    d.decidedSessionId = r.requestedSessionId ∧ d.decidedTenantId = r.requestedTenantId
  inWindow : r.requestedAt ≤ d.decidedAt ∧ d.decidedAt ≤ r.expiresAt
  requestDigest : d.requestDigest = r.requestDigest
  manifestDigest : d.bindingManifestDigest = m.manifestDigest

structure Kept (h : List (Gate env)) : Prop where
  manifest : ∀ g t, g :: t <:+ h → ∀ g₀ ∈ t, ∀ id m, g₀.manifests id = some m →
    g.manifests id = some m
  request : ∀ g t, g :: t <:+ h → ∀ g₀ ∈ t, ∀ id r, g₀.requests id = some r →
    g.requests id = some r
  /-- A request has one decision, whenever one looks. -/
  decision : ∀ g₁ ∈ h, ∀ g₂ ∈ h, ∀ id d₁ d₂, g₁.decisions id = some d₁ →
    g₂.decisions id = some d₂ → d₁ = d₂
  made : ∀ g ∈ h, ∀ id d, g.decisions id = some d → ∃ (r : Request) (m : Manifest env),
    g.requests id = some r ∧ g.manifests r.val.taskId = some m ∧ MadeFor d.val r.val m.val

theorem run_later {t : List (Gate env)} (hRun : Run (· = Gate.empty) gateStep (g :: t)) :
    ∀ x ∈ g :: t, x.Later g :=
  Run.rel_head Gate.Later.refl Gate.Later.trans (fun _ _ _ hStep => hStep.later) hRun

theorem run_sound (hRun : Run (· = Gate.empty) gateStep h) : ∀ g ∈ h, g.Sound :=
  Run.mem_inv (by rintro _ rfl; exact .empty)
    (fun _ _ _ hSound hStep => hStep.sound hSound) hRun

theorem Gate.Sound.madeFor (hSound : g.Sound) (hd : g.decisions id = some d) :
    ∃ (r : Request) (m : Manifest env),
      g.requests id = some r ∧ g.manifests r.val.taskId = some m ∧ MadeFor d.val r.val m.val := by
  obtain ⟨hId, r, hr, hMatch⟩ := hSound.decision hd
  obtain ⟨hRequest, m, hm, hDigest⟩ := hSound.request hr
  obtain ⟨hTask, hUser, hSession, hTenant, hOf, hBinding, hFrom, hUntil⟩ :=
    of_decide_eq_true hMatch
  exact ⟨r, m, hr, hm, hId.trans hRequest.symm, hTask, ⟨hUser, hSession, hTenant⟩,
    ⟨hFrom, hUntil⟩, hOf, hBinding.trans hDigest.symm⟩

theorem run_kept (hRun : Run (· = Gate.empty) gateStep h) : Kept h := by
  have hLater : ∀ g t, g :: t <:+ h → ∀ g₀ ∈ t, g₀.Later g := fun g t hSuf g₀ hMem =>
    run_later (hRun.of_suffix hSuf) g₀ (mem_cons_of_mem _ hMem)
  refine ⟨fun g t hSuf g₀ hMem => (hLater g t hSuf g₀ hMem).manifests,
    fun g t hSuf g₀ hMem => (hLater g t hSuf g₀ hMem).requests, ?_,
    fun g hg id d hd => (run_sound hRun g hg).madeFor hd⟩
  intro g₁ h₁ g₂ h₂ id d₁ d₂ hd₁ hd₂
  -- both are still there in the last gate
  cases h with
  | nil => cases h₁
  | cons g t =>
    have hEnd₁ := (run_later hRun g₁ h₁).decisions id d₁ hd₁
    have hEnd₂ := (run_later hRun g₂ h₂).decisions id d₂ hd₂
    rw [hEnd₁] at hEnd₂
    exact Option.some.inj hEnd₂

/--
**Both gates are one gate.** Where the tasks of the manifests and of the requests have
their rows, the gate in memory and the one in PostgreSQL answer every sequence of calls
alike. In every interleaving of calls, on both, manifests and requests stay as they were
stored, a request is decided once, and its decision is that of the person asked, made in
time, on that request and on the manifest of its task.
-/
theorem gates_agree (env : GateEnv) :
    (∀ (tasks : List TaskRow) (calls : List (GateCall env)),
      (∀ call ∈ calls, call.Rowed tasks) →
      Prog.answers inMemory calls Gate.empty =
        Prog.answers (postgreSQL .delivered) calls (Db.empty tasks)) ∧
    (∀ (h : List (Gate env)) (ps : Procs (Gate env) GateError), MemoryRun env h ps → Kept h) ∧
    ∀ (h : List Db) (ps : Procs Db GateError), DbRun env h ps →
      (∀ s ∈ h, s.Valid env) ∧ Kept (h.map (Db.gate env)) :=
  ⟨fun tasks _ hRowed =>
    answers_alike hRowed ⟨.empty env tasks, rfl, Db.gate_empty env tasks, .empty⟩,
    fun _ _ hRun => run_kept hRun.steps,
    fun _ _ hRun => ⟨db_valid hRun.steps, run_kept hRun.gates⟩⟩

namespace Sample

def fixedEnv : GateEnv := ⟨fun _ _ _ => List.replicate 64 'a'⟩

def manifest : Manifest fixedEnv :=
  ⟨{ taskId := ['t'], bindings := [⟨.tool, ['x'], ['1'], List.replicate 64 'b'⟩]
     unusedResourceTypes := [.workflow, .skill, .prompt, .policy]
     manifestDigest := List.replicate 64 'a', lockedAt := 0 }, by decide +kernel⟩

def request : Request :=
  ⟨{ requestId := ['r'], taskId := ['t'], requestedForAiUserId := ['u']
     requestedSessionId := ['s'], requestedTenantId := ['n']
     actionDigest := List.replicate 64 'c', requestDigest := List.replicate 64 'd'
     bindingManifestDigest := List.replicate 64 'a', requestedAt := 10, expiresAt := 20 },
    by decide +kernel⟩

def decision (verdict : Verdict) : Decision :=
  ⟨{ requestId := ['r'], taskId := ['t'], decidedByAiUserId := ['u'], decidedSessionId := ['s']
     decidedTenantId := ['n'], decision := verdict, requestDigest := List.replicate 64 'd'
     bindingManifestDigest := List.replicate 64 'a', decidedAt := 20 },
    by cases verdict <;> decide +kernel⟩

/-- The task is bound, a request is made and confirmed; a second verdict comes too late. -/
def calls : List (GateCall fixedEnv) :=
  [.bindTask manifest, .createRequest request, .recordDecision (decision .confirmed),
    .recordDecision (decision .rejected), .getDecision ['r']]

def rows : List TaskRow := [⟨['t'], ['s'], ['u']⟩]

theorem calls_rowed : ∀ call ∈ calls, call.Rowed rows := by
  intro call hCall
  simp only [calls, mem_cons, not_mem_nil, or_false] at hCall
  rcases hCall with rfl | rfl | rfl | rfl | rfl
  · exact ⟨_, mem_cons_self, rfl⟩
  · exact ⟨_, mem_cons_self, by decide +kernel⟩
  all_goals exact trivial

def turns : List (Turn Db GateError) :=
  calls.map fun call => .call (postgreSQL .delivered call).discard

theorem turns_run : ∃ ps, DbRun fixedEnv (Turn.inTurn turns [Db.empty rows]) ps := by
  refine PoolRun.inTurn ⟨rows, rfl⟩ fun turn hTurn => ?_
  obtain ⟨call, -, rfl⟩ := mem_map.mp hTurn
  exact fun _ => ⟨_, call, rfl⟩

end Sample

open Sample

theorem gates_agree_sample :
    Prog.answers inMemory calls Gate.empty =
        Prog.answers (postgreSQL .delivered) calls (Db.empty rows) ∧
      Prog.answers inMemory calls Gate.empty =
        [.ok (.manifest (some manifest)), .ok (.request (some request)),
          .ok (.decision (some (decision .confirmed))), .error .conflict,
          .ok (.decision (some (decision .confirmed)))] ∧
      Kept ((Turn.inTurn turns [Db.empty rows]).map (Db.gate fixedEnv)) := by
  refine ⟨(gates_agree fixedEnv).1 _ _ calls_rowed, by decide +kernel, ?_⟩
  obtain ⟨ps, hRun⟩ := turns_run
  exact ((gates_agree fixedEnv).2.2 _ _ hRun).2

def GateCall.RequestRowed (tasks : List TaskRow) : GateCall env → Prop
  | .createRequest r => ∃ t ∈ tasks, TaskRow.owns r.val t = true
  | _ => True

/-- A task without a row is bound in memory and is a conflict in PostgreSQL, also where
nothing is requested. -/
theorem unrowed_task_disagrees :
    ¬∀ (env : GateEnv) (tasks : List TaskRow) (calls : List (GateCall env)),
      (∀ call ∈ calls, call.RequestRowed tasks) →
      Prog.answers inMemory calls Gate.empty =
        Prog.answers (postgreSQL .delivered) calls (Db.empty tasks) := by
  intro hAlike
  have hBind := hAlike fixedEnv [] [.bindTask manifest] fun call hCall => by
    rw [mem_singleton.mp hCall]
    trivial
  revert hBind
  decide +kernel

end EternalAI.HumanGate
