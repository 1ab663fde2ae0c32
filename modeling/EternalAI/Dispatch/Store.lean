import EternalAI.Dispatch.Command
import Mathlib.Logic.Function.Basic

/-!
# Dispatched tasks — the store

All tasks with their files and the receipts of dispatch requests, and the
remaining transactions that change them: inserting a prepared dispatch
(`dispatch_insert.py`), linking and detaching attachments (`attachments.py`),
editing the remark (`postgresql.py`). Every one of them locks the row of the
task first, or inserts it.

* `World.command` — the lifecycle transaction on the store.
* `World.insertPrepared`, `World.mutateFiles`, `World.editRemark` — the others.
* `listForScope` — a list over the store, which reloads every row it finds.
-/

namespace EternalAI.Dispatch

open Lib Function

inductive AttachmentOperation where
  | link | detach
  deriving DecidableEq, Repr

inductive ReceiptResult where
  | dispatched (workObjectIds : List Str)
  | attachment (operation : AttachmentOperation) (workObjectId : Str)
  deriving DecidableEq, Repr

/-- `DispatchReceipt`; attachments share the table. -/
structure Receipt where
  (tenantId initiatorAiUserId : Str)
  idempotencyKey : Uuid
  requestFingerprint : String
  result : ReceiptResult
  deriving DecidableEq, Repr

structure World where
  tasks : Str → Option Task
  files : List Attachment
  receipts : List Receipt

def World.put (w : World) (id : Str) (task : Task) : World :=
  { w with tasks := update w.tasks id (some task) }

@[simp] theorem World.put_tasks_self (w : World) (id : Str) (task : Task) :
    (w.put id task).tasks id = some task := update_self ..

theorem World.put_self {w : World} {id : Str} {task : Task} (hTask : w.tasks id = some task) :
    w.put id task = w := by
  unfold World.put
  rw [← hTask, update_eq_self]

theorem World.put_tasks_of_ne (w : World) {id other : Str} (task : Task) (hne : other ≠ id) :
    (w.put id task).tasks other = w.tasks other := update_of_ne hne ..

def World.receipt (w : World) (tenantId aiUserId : Str) (key : Uuid) : Option Receipt :=
  w.receipts.find? fun r => r.tenantId == tenantId && r.initiatorAiUserId == aiUserId &&
    r.idempotencyKey == key

/-- `command_dispatch_lifecycle`. -/
def World.command (env : Env) (sub : Submission) (w : World) : Tx (MutationResult × World) := do
  let done ← commandTask env sub (w.tasks sub.workObjectId) w.files
  pure (done.1, { w.put sub.workObjectId done.2.1 with files := done.2.2 })

/-! ## Dispatch -/

/-- `PreparedDispatch`: the rows to insert, each task with its relations. -/
structure PreparedDispatch where
  scope : Scope
  idempotencyKey : Uuid
  requestFingerprint : String
  records : List (Root × List Relation)
  attachmentIds : List Uuid
  validUntil : Tick

/-- `DispatchResult`: the tasks with the relations that the initiator sees. -/
structure DispatchResult where
  items : List (Root × List RelationView)
  replayed : Bool

structure Draws where
  clock : Clock
  newAttachmentId : Nat → Uuid

/-- One task of a dispatch: the row, its relations, and its copies of the
attachments. -/
def World.insertRecord (p : PreparedDispatch) (draws : Draws) (w : World)
    (record : Root × List Relation) : Tx World := do
  Script.require (w.tasks record.1.workObjectId = none) .workObjectDispatchFailed
  Script.write (.root record.1)
  let table ← insertRelations record.2 []
  let files ← Script.ofExcept (if p.attachmentIds = [] then .ok w.files else
    linkAttachments
      { workObjectId := record.1.workObjectId
        handlingRelationId := none
        attachmentIds := p.attachmentIds
        purpose := .taskMaterial
        visibility := .shared
        now := record.1.createdAt }
      p.scope (draws.clock.reading 2) (draws.clock.reading 3) draws.newAttachmentId table w.files)
  pure { w.put record.1.workObjectId
      { root := record.1, relations := table, events := [], remark := none,
        remarkHistory := [] } with
    files := files }

/-- The public items of some tasks as the actor sees them now. -/
def World.items (env : Env) (scope : Scope) (early late : Tick) (w : World) :
    List Str → Except DispatchError (List (Root × List RelationView))
  | [] => .ok []
  | id :: ids =>
    match loadLifecycleView env scope early late (w.tasks id), w.items env scope early late ids with
    | .ok loaded, .ok rest => .ok ((loaded.1.root, loaded.2.relations) :: rest)
    | .ok _, .error e => .error e
    | .error e, _ => .error e

section

variable (env : Env) (sub : FileSubmission) (task : Task)

/-- `replay_dispatch_receipt`: the stored ids through the present authority. -/
def World.replayReceipt (receipt : Receipt) (scope : Scope) (clock : Clock) (w : World) :
    Except DispatchError DispatchResult :=
  if receipt.tenantId ≠ scope.tenantId ∨ receipt.initiatorAiUserId ≠ scope.aiUserId then
    .error .workObjectNotFound
  else
    match receipt.result with
    | .attachment _ _ => .error (.validationError "items")
    | .dispatched ids => do
      let items ← w.items env scope (clock.reading 4) (clock.reading 5) ids
      recheckScope scope (clock.reading 6)
      pure ⟨items, true⟩

/-- `insert_prepared_dispatch`. -/
def World.insertPrepared (p : PreparedDispatch) (draws : Draws) (w : World) :
    Tx (DispatchResult × World) := do
  Script.ofExcept (recheckScope p.scope (draws.clock.reading 0))
  Script.require (draws.clock.reading 1 ≤ p.validUntil) .organizationDirectoryStale
  match w.receipt p.scope.tenantId p.scope.aiUserId p.idempotencyKey with
  | some winner => do
    Script.require (winner.requestFingerprint = p.requestFingerprint) .idempotencyKeyReused
    let result ← Script.ofExcept (w.replayReceipt env winner p.scope draws.clock)
    pure (result, w)
  | none => do
    let inserted ← Script.foldScript (fun w record => w.insertRecord p draws record) p.records w
    let ids := p.records.map (·.1.workObjectId)
    let items ← Script.ofExcept
      (inserted.items env p.scope (draws.clock.reading 4) (draws.clock.reading 5) ids)
    Script.ofExcept (recheckScope p.scope (draws.clock.reading 6))
    pure (⟨items, false⟩, { inserted with
      receipts := inserted.receipts ++ [{
        tenantId := p.scope.tenantId
        initiatorAiUserId := p.scope.aiUserId
        idempotencyKey := p.idempotencyKey
        requestFingerprint := p.requestFingerprint
        result := .dispatched ids }] })

/-! ## Attachments of a task -/

/-- What a call of `link` or `detach` asks for. -/
inductive FileRequest where
  | link (attachmentIds : List Uuid) (purpose : AttachmentPurpose) (visibility : Visibility)
      (handlingRelationId : Option Uuid)
  | detach (attachmentId : Uuid)

/-- The arguments of `_mutate`, with the readings and ids it draws. -/
structure FileSubmission where
  workObjectId : Str
  scope : Scope
  request : FileRequest
  ifMatch : String
  idempotencyKey : Uuid
  requestFingerprint : String
  now : Time
  draws : Draws

def FileRequest.operation : FileRequest → AttachmentOperation
  | .link _ _ _ _ => .link
  | .detach _ => .detach

def fileVisible (scope : Scope) (now : Tick) (task : Task) (a : Attachment) : Bool :=
  a.tenantId == task.root.tenantId && a.workObjectId == some task.root.workObjectId &&
    rootVisible scope now task && (a.visibility == .shared ||
      task.relations.any fun r =>
        some r.relationId == a.handlingRelationId && participant scope now r)

def detachTarget (files : List Attachment) : Except DispatchError (Option Attachment) :=
  match sub.request with
  | .link _ _ _ _ => .ok none
  | .detach id =>
    match recheckScope sub.scope (sub.draws.clock.reading 3), files.find? fun a =>
        a.attachmentId == id && fileVisible sub.scope (sub.draws.clock.reading 2) task a with
    | .error e, _ => .error e
    | .ok _, some a => .ok (some a)
    | .ok _, none => .error .workObjectActionForbidden

def FileRequest.relationId (request : FileRequest) (target : Option Attachment) : Option Uuid :=
  match request with
  | .link _ _ _ id => id
  | .detach _ => target.bind (·.handlingRelationId)

def mutationRights (scope : Scope) (early late : Tick) (task : Task) (relationId : Option Uuid) :
    Except DispatchError Unit := do
  recheckScope scope early
  let taking := task.relations.any fun r => participant scope late r &&
    relationId.all (· == r.relationId)
  if rootVisible scope late task &&
      (taking || (relationId.isNone && task.root.initiatorAiUserId == scope.aiUserId)) then .ok ()
  else .error .workObjectActionForbidden

/-- `_claim`: the receipt is new, or it was issued for the same request. -/
def World.claim (w : World) : Except DispatchError (Bool × World) :=
  let result := ReceiptResult.attachment sub.request.operation sub.workObjectId
  match w.receipt sub.scope.tenantId sub.scope.aiUserId sub.idempotencyKey with
  | none => .ok (false, { w with
      receipts := w.receipts ++ [{
        tenantId := sub.scope.tenantId
        initiatorAiUserId := sub.scope.aiUserId
        idempotencyKey := sub.idempotencyKey
        requestFingerprint := sub.requestFingerprint
        result := result }] })
  | some r =>
    if r.requestFingerprint = sub.requestFingerprint ∧ r.result = result then .ok (true, w)
    else .error .idempotencyKeyReused

/-- The relation that receives or loses a file has not handed in its result. -/
def relationOpen (relationId : Option Uuid) : Except DispatchError Unit :=
  match relationId with
  | none => .ok ()
  | some id =>
    match (current task.relations).find? (·.relationId = id) with
    | none => .error .workObjectStoreUnavailable
    | some r => if r.status.handedIn then .error .transitionInvalid else .ok ()

/-- What `_mutate` refuses once the receipt is claimed. -/
def checkMutation (view : LifecycleView) (target : Option Attachment) :
    Except DispatchError Unit := do
  ensure (¬ view.frozen) .transitionInvalid
  ensure (sub.ifMatch ≠ "") .preconditionRequired
  ensure (sub.ifMatch = view.etag env) .versionConflict
  ensure (¬ needsRelation sub.request) .workObjectActionForbidden
  ensure (¬ (target.any (·.purpose == .result) ∧ view.status = .awaitingAcceptance))
    .transitionInvalid
  relationOpen task (sub.request.relationId target)
where
  needsRelation : FileRequest → Bool
    | .link _ purpose _ relation => purpose == .result && relation.isNone
    | .detach _ => false

def mutatedFiles (target : Option Attachment) (files : List Attachment) :
    Except DispatchError (List Attachment) :=
  match sub.request, target with
  | .link ids purpose visibility relation, _ =>
    linkAttachments
      { workObjectId := sub.workObjectId
        handlingRelationId := relation
        attachmentIds := ids
        purpose := purpose
        visibility := visibility
        now := sub.now }
      sub.scope (sub.draws.clock.reading 6) (sub.draws.clock.reading 7) sub.draws.newAttachmentId
      task.relations files
  | .detach _, none => .error .workObjectActionForbidden
  | .detach id, some a =>
    if a.detachedAt.isSome then .error .workObjectAttachmentInvalid
    else .ok (files.map fun x =>
      if x.tenantId = sub.scope.tenantId ∧ x.workObjectId = some sub.workObjectId ∧
          x.attachmentId = id then
        { x with detachedAt := some sub.now, version := x.version + 1 }
      else x)

def Root.touched (now : Time) (root : Root) : Root :=
  { root with version := root.version + 1, updatedAt := now }

/-- The part of `_mutate` for a receipt that is new. -/
def World.applyFiles (view : LifecycleView) (target : Option Attachment) (w : World) :
    Tx World := do
  Script.ofExcept (checkMutation env sub task view target)
  let files ← Script.ofExcept (mutatedFiles sub task target w.files)
  let root := task.root.touched sub.now
  Script.write (.root root)
  pure { w.put sub.workObjectId { task with root := root } with files := files }

/-- A receipt that was issued before changes nothing. -/
def World.applyClaimed (view : LifecycleView) (target : Option Attachment)
    (claimed : Bool × World) : Tx World :=
  if claimed.1 then pure claimed.2 else claimed.2.applyFiles env sub task view target

/-- `_mutate`: the result is the new entity tag and whether it was a replay. -/
def World.mutateFiles (w : World) : Tx ((String × Bool) × World) := do
  let reading := sub.draws.clock.reading
  let loaded ← Script.ofExcept
    (loadLifecycleView env sub.scope (reading 0) (reading 1) (w.tasks sub.workObjectId))
  let target ← Script.ofExcept (detachTarget sub loaded.1 w.files)
  Script.ofExcept
    (mutationRights sub.scope (reading 4) (reading 5) loaded.1 (sub.request.relationId target))
  let claimed ← Script.ofExcept (w.claim sub)
  let after ← World.applyClaimed env sub loaded.1 loaded.2 target claimed
  Script.ofExcept (recheckScope sub.scope (reading 8))
  let present ← Script.ofExcept
    (loadLifecycleView env sub.scope (reading 9) (reading 10) (after.tasks sub.workObjectId))
  Script.ofExcept (recheckScope sub.scope (reading 11))
  pure ((present.2.etag env, claimed.1), after)

/-! ## Remarks -/

/-- The arguments of `edit_remark`. -/
structure RemarkSubmission where
  workObjectId : Str
  scope : Scope
  text : Str
  expectedEtag : String
  idempotencyKey : Uuid
  requestFingerprint : String
  now : Time
  clock : Clock

def remarkEditable (scope : Scope) (task : Task) (relations : List Relation) : Bool :=
  task.root.initiatorAiUserId == scope.aiUserId ||
    relations.any (relationPrivateAllowed · scope) ||
    (task.root.dispatchModelVersion.isNone &&
      (task.root.acceptedByAiUserId == some scope.aiUserId ||
        (scope.directoryUserId.isSome &&
          scope.directoryUserId == task.root.assigneeDirectoryUserId)))

/-- `RemarkView.etag`, for an actor who may edit. -/
def remarkEtag : String :=
  "\"worm-" ++ env.remarkDigest task.root.workObjectId task.remark ++ "\""

end

def priorRemark (sub : RemarkSubmission) (task : Task) : Option RemarkEntry :=
  task.remarkHistory.find? fun h => h.remark.updatedBy == sub.scope.aiUserId &&
    h.idempotencyKey == sub.idempotencyKey

def RemarkSubmission.remark (sub : RemarkSubmission) (task : Task) : Remark where
  text := sub.text
  version := (task.remark.map (·.version)).getD 0 + 1
  updatedBy := sub.scope.aiUserId
  updatedAt := sub.now

def World.editRemark (env : Env) (sub : RemarkSubmission) (w : World) :
    Tx ((Remark × Bool) × World) := do
  let task ← Script.ofExcept
    (loadManualRoot sub.scope (sub.clock.reading 0) (w.tasks sub.workObjectId))
  Script.ofExcept (recheckScope sub.scope (sub.clock.reading 1))
  let relations := loadRelations sub.scope (sub.clock.reading 2) task.relations
  Script.ofExcept (recheckScope sub.scope (sub.clock.reading 3))
  Script.require (remarkEditable sub.scope task relations) .workObjectActionForbidden
  match priorRemark sub task with
  | some prior => do
    Script.require (prior.requestFingerprint = sub.requestFingerprint) .idempotencyKeyReused
    pure ((prior.remark, true), w)
  | none => do
    Script.ofExcept (checkEtag sub.expectedEtag (remarkEtag env task))
    Script.require (sub.text.length ≤ 2000) .workObjectLifecycleRequestInvalid
    let remark := sub.remark task
    pure ((remark, false), w.put sub.workObjectId { task with
      remark := some remark
      remarkHistory := task.remarkHistory ++
        [⟨remark, sub.idempotencyKey, sub.requestFingerprint⟩] })

/-! ## Lists -/

/-- `list_for_scope` over the rows with the given ids that `selected` lets
through: each row that the actor may see is validated. -/
def listForScope (scope : Scope) (now : Tick) (selected : Root → Bool) (w : World) :
    List Str → Except DispatchError (List Root)
  | [] => .ok []
  | id :: ids =>
    match w.tasks id with
    | none => listForScope scope now selected w ids
    | some task =>
      if rootVisible scope now task && selected task.root then
        match task.root.validateDispatch, listForScope scope now selected w ids with
        | .ok _, .ok rest => .ok (task.root :: rest)
        | .ok _, .error e => .error e
        | .error message, _ => .error (.validationError message)
      else listForScope scope now selected w ids

end EternalAI.Dispatch
