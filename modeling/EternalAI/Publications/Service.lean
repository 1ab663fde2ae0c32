import EternalAI.Publications.Model
import EternalAI.Lib.Commit

/-!
# Browser publications — the operations and their interleavings

The preparations, activations and the deactivation of
`PostgreSQLBrowserPublicationStore`, called by any number of processes. Only these
write the table.

* `PubCall.program` — what each operation checks before its transaction.
* `PubRun` — the interleavings.
-/

namespace EternalAI.Publications

open Lib
open Dispatch (Str)
open Leases (Owner)

def commit (ack : Ack) (f : State → Except PubError (Record × State)) :
    Prog State PubError Record :=
  transact ack .storeUnavailable .storeUnavailable (fun _ => true) f

section Operations

variable (env : PubEnv) (owner : Owner) (manifest : Manifest) (answers : Answers) (ack : Ack)

/-- `_prepare`. -/
def prepareWith (lineage : Lineage) : Prog State PubError Record := do
  let manifest ← Prog.ofExcept (env.manifest manifest)
  Prog.ofExcept (answers.authorize 0)
  commit ack (State.prepare env owner manifest lineage answers)

def PubEnv.isFixed (env : PubEnv) (owner : Owner) (manifest successor : Manifest) :
    Except PubError Unit := do
  ensure (owner.tenantId = env.fixed.tenant) .sourceDenied
  let manifest ← env.manifest manifest
  ensure (manifest = successor) .sourceDenied

def prepare : Prog State PubError Record := prepareWith env owner manifest answers ack .plain

def prepareDiagnosticSecond : Prog State PubError Record := do
  Prog.ofExcept (env.isFixed owner manifest env.fixed.diagnostic)
  prepareWith env owner manifest answers ack (.after [env.fixed.query])

def prepareVisibleComplete : Prog State PubError Record := do
  Prog.ofExcept (env.isFixed owner manifest env.fixed.visible)
  prepareWith env owner manifest answers ack (.after [env.fixed.query, env.fixed.diagnostic])

def approvedObserveAttemptId (attemptId : Option Str) : Except PubError Unit :=
  ensure (∀ id ∈ attemptId, id.length = 32 ∧ id.all fun c => c.isDigit || 'a' ≤ c ∧ c ≤ 'f')
    .validation

/-- The lineage of an observation: an attempt of its own needs no named predecessors. -/
def PubEnv.observed (env : PubEnv) : Option Str → Lineage
  | some _ => .observe
  | none => .after [env.fixed.query, env.fixed.diagnostic, env.fixed.visible]

def prepareObserveOnly (attemptId : Option Str) : Prog State PubError Record := do
  Prog.ofExcept (approvedObserveAttemptId attemptId)
  Prog.ofExcept (env.isFixed owner manifest (env.fixed.observe attemptId))
  prepareWith env owner manifest answers ack (env.observed attemptId)

/-- `_transition`. -/
def transitionWith (skillId digest : Str) (expectedRevision : Int) (operation : Operation)
    (grounds : Grounds) (expectedActive : Option Str) : Prog State PubError Record := do
  Prog.require (opaqueId skillId ∧ hexDigest digest) .referenceInvalid
  Prog.require (expectedRevision = 0 ∨ expectedRevision = 1) .revisionInvalid
  Prog.ofExcept (answers.authorize 0)
  commit ack (State.transition env owner skillId digest expectedRevision.toNat operation grounds
    expectedActive answers)

def activate (skillId digest : Str) (expectedRevision : Int) : Prog State PubError Record :=
  transitionWith env owner answers ack skillId digest expectedRevision .activate .plain none

def activateReviewed (expectedActive : Option Str) : Prog State PubError Record := do
  let checked ← Prog.ofExcept (env.manifest manifest)
  Prog.require (checked.sourceKind = .registeredSite ∧ answers.review.isSome) .reviewRequired
  Prog.require (checked.rollbackSourceDigest.isSome → expectedActive.isSome) .headRequired
  Prog.require (∀ digest ∈ expectedActive, hexDigest digest = true) .referenceInvalid
  transitionWith env owner answers ack checked.skill.skillId checked.digest 0 .activate
    (.reviewed checked) expectedActive

def activateInitial (taskId runId approvalRef : Str) : Prog State PubError Record := do
  let checked ← Prog.ofExcept (env.manifest manifest)
  Prog.require (checked.sourceKind = .registeredSite ∧ checked.rollbackSourceDigest = none ∧
    answers.review.isSome) .initialInvalid
  Prog.require (opaqueId taskId ∧ opaqueId runId ∧ opaqueId approvalRef) .validation
  transitionWith env owner answers ack checked.skill.skillId checked.digest 0 .activate
    (.initial checked) none

def activateFixedInitial : Prog State PubError Record := do
  let checked ← Prog.ofExcept (env.manifest manifest)
  Prog.require (answers.fixedInitial 0) .reviewRequired
  transitionWith env owner answers ack checked.skill.skillId checked.digest 0 .activate
    (.fixedInitial checked) none

def deactivate (skillId digest : Str) (expectedRevision : Int) : Prog State PubError Record :=
  transitionWith env owner answers ack skillId digest expectedRevision .deactivate .plain none

end Operations

/-! ## Calls -/

inductive PrepareCall where
  | plain (owner : Owner) (manifest : Manifest)
  | diagnosticSecond (owner : Owner) (manifest : Manifest)
  | visibleComplete (owner : Owner) (manifest : Manifest)
  | observeOnly (owner : Owner) (manifest : Manifest) (attemptId : Option Str)

inductive ActivateCall where
  | plain (owner : Owner) (skillId digest : Str) (expectedRevision : Int)
  | reviewed (owner : Owner) (manifest : Manifest) (expectedActive : Option Str)
  | initial (owner : Owner) (manifest : Manifest) (taskId runId approvalRef : Str)
  | fixedInitial (owner : Owner) (manifest : Manifest)

def ActivateCall.target : ActivateCall → Str × Str
  | .plain owner _ digest _ => (owner.tenantId, digest)
  | .reviewed owner manifest _ => (owner.tenantId, manifest.digest)
  | .initial owner manifest _ _ _ => (owner.tenantId, manifest.digest)
  | .fixedInitial owner manifest => (owner.tenantId, manifest.digest)

inductive PubCall where
  | prepares (call : PrepareCall)
  | activates (call : ActivateCall)
  | deactivates (owner : Owner) (skillId digest : Str) (expectedRevision : Int)

section

variable (env : PubEnv) (answers : Answers) (ack : Ack)

def PrepareCall.program : PrepareCall → Prog State PubError Record
  | .plain owner manifest => prepare env owner manifest answers ack
  | .diagnosticSecond owner manifest => prepareDiagnosticSecond env owner manifest answers ack
  | .visibleComplete owner manifest => prepareVisibleComplete env owner manifest answers ack
  | .observeOnly owner manifest attemptId =>
    prepareObserveOnly env owner manifest answers ack attemptId

def ActivateCall.program : ActivateCall → Prog State PubError Record
  | .plain owner skillId digest expectedRevision =>
    activate env owner answers ack skillId digest expectedRevision
  | .reviewed owner manifest expectedActive =>
    activateReviewed env owner manifest answers ack expectedActive
  | .initial owner manifest taskId runId approvalRef =>
    activateInitial env owner manifest answers ack taskId runId approvalRef
  | .fixedInitial owner manifest => activateFixedInitial env owner manifest answers ack

def PubCall.program (env : PubEnv) (answers : Answers) (ack : Ack) :
    PubCall → Prog State PubError Record
  | .prepares call => call.program env answers ack
  | .activates call => call.program env answers ack
  | .deactivates owner skillId digest expectedRevision =>
    deactivate env owner answers ack skillId digest expectedRevision

def Unpublished (s : State) : Prop := s = []

/-- Interleavings of any operations on publications, from the empty table on. A process
that dies leaves the table as it is. -/
def PubRun : List State → Procs State PubError → Prop :=
  PoolRun Unpublished (fun _ _ => False)
    (fun _ p => ∃ (call : PubCall) (answers : Answers) (ack : Ack),
      p = (call.program env answers ack).discard) fun _ s => s

end

end EternalAI.Publications
