import EternalAI.HumanGate.Model
import EternalAI.Lib.Commit
import EternalAI.Lib.Keyed

/-!
# The human gate — two implementations

* `Gate` — `InMemoryHumanGate`: three dictionaries. The lock makes a call one step.
* `Db` — `PostgreSQLHumanGate`: a call is several transactions, and the fate of the one
  that writes is given.

The columns of a decision are null together or not at all (`ck_human_gate_decision_record`);
they are `GateRow.decided`. The other `CHECK`s hold of every value that is written. Only
these functions write the two tables. `tasks` is written elsewhere, and nothing deletes
a task.
-/

namespace EternalAI.HumanGate

open Lib
open Dispatch (Str Time)

variable {env : GateEnv}

/-! ## In memory -/

structure Gate (env : GateEnv) where
  manifests : Str → Option (Manifest env)
  requests : Str → Option Request
  decisions : Str → Option Decision

def Gate.empty : Gate env := ⟨fun _ => none, fun _ => none, fun _ => none⟩

/-- A value is stored under a key once. -/
def storeOnce {α : Type} [DecidableEq α] (table : Str → Option α) (key : Str) (value : α) :
    Except GateError (Str → Option α) :=
  match table key with
  | none => .ok (Function.update table key (some value))
  | some existing => if existing = value then .ok table else .error .conflict

namespace Gate

def bindTask (manifest : Manifest env) (g : Gate env) :
    Except GateError (GateAnswer env × Gate env) := do
  let manifests ← storeOnce g.manifests manifest.val.taskId manifest
  pure (.manifest (some manifest), { g with manifests })

def createRequest (request : Request) (g : Gate env) :
    Except GateError (GateAnswer env × Gate env) := do
  ensure ((g.manifests request.val.taskId).any fun m =>
    m.val.manifestDigest = request.val.bindingManifestDigest) .conflict
  let requests ← storeOnce g.requests request.val.requestId request
  pure (.request (some request), { g with requests })

def recordDecision (decision : Decision) (g : Gate env) :
    Except GateError (GateAnswer env × Gate env) := do
  ensure ((g.requests decision.val.requestId).any fun r => decision.val.matches r.val) .conflict
  let decisions ← storeOnce g.decisions decision.val.requestId decision
  pure (.decision (some decision), { g with decisions })

/-- `InMemoryHumanGate`. -/
def answer : GateCall env → Gate env → Except GateError (GateAnswer env × Gate env)
  | .bindTask manifest, g => g.bindTask manifest
  | .assertTaskBindings taskId bindings exact allowUnbound, g => do
    assertManifest bindings exact allowUnbound (g.manifests taskId)
    pure (.done, g)
  | .getTaskBinding taskId, g => .ok (.manifest (g.manifests taskId), g)
  | .createRequest request, g => g.createRequest request
  | .getRequest requestId, g => .ok (.request (g.requests requestId), g)
  | .recordDecision decision, g => g.recordDecision decision
  | .getDecision requestId, g => .ok (.decision (g.decisions requestId), g)

end Gate

def inMemory (call : GateCall env) : Prog (Gate env) GateError (GateAnswer env) :=
  Prog.atomic (Gate.answer call)

/-! ## The tables -/

structure TaskRow where
  (taskId sessionId aiUserId : Str)
  deriving DecidableEq

/-- The columns that are null until a request is decided. -/
structure Decided where
  decision : Verdict
  (decidedByAiUserId decidedSessionId decidedTenantId : Str)
  decidedAt : Time

/-- A row of `human_gate_requests`. -/
structure GateRow where
  request : RequestRow
  decided : Option Decided

def GateRow.requestId (row : GateRow) : Str := row.request.requestId

/-- The decision of a row, with the columns of the request that it repeats. -/
def GateRow.decision (row : GateRow) : Option DecisionRow :=
  row.decided.map fun d =>
    { requestId := row.request.requestId, taskId := row.request.taskId,
      decidedByAiUserId := d.decidedByAiUserId, decidedSessionId := d.decidedSessionId,
      decidedTenantId := d.decidedTenantId, decision := d.decision,
      requestDigest := row.request.requestDigest,
      bindingManifestDigest := row.request.bindingManifestDigest, decidedAt := d.decidedAt }

/-- What the `UPDATE` sets. -/
def GateRow.decide (d : DecisionRow) (row : GateRow) : GateRow :=
  { row with decided := some ⟨d.decision, d.decidedByAiUserId, d.decidedSessionId,
      d.decidedTenantId, d.decidedAt⟩ }

theorem GateRow.requestId_decide (d : DecisionRow) (row : GateRow) :
    (row.decide d).requestId = row.requestId := rfl

/-- The condition of the `UPDATE`. -/
def GateRow.admits (row : GateRow) (d : DecisionRow) : Bool :=
  row.request.requestId = d.requestId ∧ row.request.taskId = d.taskId ∧
    row.request.requestedForAiUserId = d.decidedByAiUserId ∧
    row.request.requestedSessionId = d.decidedSessionId ∧
    row.request.requestedTenantId = d.decidedTenantId ∧
    row.request.requestDigest = d.requestDigest ∧
    row.request.bindingManifestDigest = d.bindingManifestDigest ∧
    row.request.requestedAt ≤ d.decidedAt ∧ row.request.expiresAt ≥ d.decidedAt ∧
    row.decided.isNone

structure Db where
  tasks : List TaskRow
  manifests : Keyed ManifestRow.taskId
  requests : Keyed GateRow.requestId

def TaskRow.owns (r : RequestRow) (t : TaskRow) : Bool :=
  t.taskId = r.taskId ∧ t.sessionId = r.requestedSessionId ∧ t.aiUserId = r.requestedForAiUserId

namespace Db

def empty (tasks : List TaskRow) : Db := ⟨tasks, Keyed.empty, Keyed.empty⟩

def request (s : Db) (requestId : Str) : Option RequestRow :=
  (s.requests.find requestId).map GateRow.request

def decision (s : Db) (requestId : Str) : Option DecisionRow :=
  (s.requests.find requestId).bind GateRow.decision

/-- `INSERT INTO task_version_binding_manifests … ON CONFLICT DO NOTHING`: whether a row
came. The task has to be there. -/
def insertManifest (m : ManifestRow) (s : Db) : Except GateError (Bool × Db) :=
  match s.manifests.find m.taskId with
  | some _ => .ok (false, s)
  | none => do
    ensure (s.tasks.any fun t => t.taskId = m.taskId) .conflict
    let manifests ← s.manifests.insert m .conflict
    pure (true, { s with manifests })

/-- `INSERT INTO human_gate_requests … SELECT … FROM tasks … ON CONFLICT DO NOTHING`. The
manifest of the task has to be there with its digest. -/
def insertRequest (r : RequestRow) (s : Db) : Except GateError (Bool × Db) :=
  match s.tasks.any (TaskRow.owns r), s.requests.find r.requestId with
  | true, none => do
    ensure ((s.manifests.find r.taskId).any fun m =>
      m.manifestDigest = r.bindingManifestDigest) .conflict
    let requests ← s.requests.insert ⟨r, none⟩ .conflict
    pure (true, { s with requests })
  | _, _ => .ok (false, s)

/-- `UPDATE human_gate_requests SET decision = …`. -/
def updateDecision (d : DecisionRow) (s : Db) : Except GateError (Bool × Db) :=
  if (s.requests.find d.requestId).any fun row => row.admits d then
    .ok (true, { s with
      requests := s.requests.update d.requestId (GateRow.decide d) (GateRow.requestId_decide d) })
  else .ok (false, s)

end Db

/-! ## PostgreSQL -/

/-- What was selected, checked as the model of the port. -/
def loaded {ρ : Type} (valid : ρ → Bool) :
    Option ρ → Except GateError (Option { row : ρ // valid row = true })
  | none => .ok none
  | some row =>
    if hValid : valid row = true then .ok (some ⟨row, hValid⟩) else .error .invalid

def select {ρ : Type} (valid : ρ → Bool) (row : Db → Option ρ) :
    Prog Db GateError (Option { row : ρ // valid row = true }) := do
  let found ← Prog.read row
  Prog.ofExcept (loaded valid found)

def getManifest (taskId : Str) : Prog Db GateError (Option (Manifest env)) :=
  select (ManifestRow.valid env) fun s => s.manifests.find taskId

def getRequest (requestId : Str) : Prog Db GateError (Option Request) :=
  select RequestRow.valid fun s => s.request requestId

def getDecision (requestId : Str) : Prog Db GateError (Option Decision) :=
  select DecisionRow.valid fun s => s.decision requestId

/-- A value that was not written has to be the one that is there. -/
def writtenOr {α : Type} [DecidableEq α] (value : α) (reload : Prog Db GateError (Option α)) :
    Bool → Prog Db GateError Unit
  | true => pure ()
  | false => do
    let existing ← reload
    Prog.require (existing = some value) .conflict

def bindTask (ack : Ack) (manifest : Manifest env) : Prog Db GateError (GateAnswer env) := do
  let inserted ← transact ack .unavailable .unavailable (fun _ => true)
    (Db.insertManifest manifest.val)
  writtenOr manifest (getManifest manifest.val.taskId) inserted
  pure (.manifest (some manifest))

def createRequest (ack : Ack) (request : Request) : Prog Db GateError (GateAnswer env) := do
  let manifest ← @getManifest env request.val.taskId
  Prog.require (manifest.any fun m =>
    m.val.manifestDigest = request.val.bindingManifestDigest) .conflict
  let inserted ← transact ack .unavailable .unavailable (fun _ => true)
    (Db.insertRequest request.val)
  writtenOr request (getRequest request.val.requestId) inserted
  pure (.request (some request))

/-- `record_decision`: an update of no row is rolled back. -/
def recordDecision (ack : Ack) (decision : Decision) : Prog Db GateError (GateAnswer env) := do
  let updated ← transact ack .unavailable .unavailable (fun updated => updated)
    (Db.updateDecision decision.val)
  writtenOr decision (getDecision decision.val.requestId) updated
  pure (.decision (some decision))

/-- `PostgreSQLHumanGate`. -/
def postgreSQL (ack : Ack) : GateCall env → Prog Db GateError (GateAnswer env)
  | .bindTask manifest => bindTask ack manifest
  | .assertTaskBindings taskId bindings exact allowUnbound => do
    let manifest ← @getManifest env taskId
    Prog.ofExcept (assertManifest bindings exact allowUnbound manifest)
    pure .done
  | .getTaskBinding taskId => do
    let manifest ← getManifest taskId
    pure (.manifest manifest)
  | .createRequest request => createRequest ack request
  | .getRequest requestId => do
    let request ← getRequest requestId
    pure (.request request)
  | .recordDecision decision => recordDecision ack decision
  | .getDecision requestId => do
    let decision ← getDecision requestId
    pure (.decision decision)

/-! ## Runs -/

/-- Calls of one process. A process that dies takes its gate along. -/
def MemoryCall (_ : Nat) (p : Prog (Gate env) GateError Unit) : Prop :=
  ∃ call : GateCall env, p = (inMemory call).discard

/-- Every interleaving of calls of the gate in memory. -/
def MemoryRun (env : GateEnv) : List (Gate env) → Procs (Gate env) GateError → Prop :=
  PoolRun (· = Gate.empty) (fun _ _ => False) MemoryCall fun _ g => g

/-- Tasks come and change, and none is deleted. -/
def Outside (s s' : Db) : Prop :=
  ∃ tasks : List TaskRow, (∀ t ∈ s.tasks, ∃ t' ∈ tasks, t'.taskId = t.taskId) ∧
    s' = { s with tasks }

def DbCall (env : GateEnv) (_ : Nat) (p : Prog Db GateError Unit) : Prop :=
  ∃ (ack : Ack) (call : GateCall env), p = (postgreSQL ack call).discard

/-- Every interleaving of the transactions of any number of processes, and of their deaths. -/
def DbRun (env : GateEnv) : List Db → Procs Db GateError → Prop :=
  PoolRun (fun s => ∃ tasks, s = Db.empty tasks) Outside (DbCall env) fun _ s => s

end EternalAI.HumanGate
