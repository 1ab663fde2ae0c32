import EternalAI.Publications.Model

/-!
# The human gate — manifests, requests and decisions

Before a task does something that a person has to confirm, the versions of everything it
runs with are locked in a *manifest*, a *request* is made for one person, and that
person's *decision* is recorded. The data is that of `app/ports/human_gate.py`.

* The models of the port are frozen and checked when they are built: `Manifest`,
  `Request` and `Decision` carry their check.
* A time is an instant, a text is one that the database can hold, and a JSON document
  is its value. The SHA-256 of a manifest is a parameter.
-/

namespace EternalAI.HumanGate

open Lib
open Dispatch (Str Time)
open Publications (hexDigest)

/-! ## Versions -/

/-- `HumanGateConflictError`, `VersionBindingMismatchError`, the validation error of a
stored row that is not well formed, and an error of the database. -/
inductive GateError where
  | conflict | mismatch | invalid | unavailable
  deriving DecidableEq, Repr

inductive ResourceType where
  | workflow | skill | tool | prompt | policy
  deriving DecidableEq, Repr

def ResourceType.text : ResourceType → Str
  | .workflow => "workflow".toList
  | .skill => "skill".toList
  | .tool => "tool".toList
  | .prompt => "prompt".toList
  | .policy => "policy".toList

/-- `VERSIONED_RESOURCE_TYPES`. -/
def ResourceType.all : List ResourceType := [.workflow, .skill, .tool, .prompt, .policy]

structure VersionBinding where
  resourceType : ResourceType
  (resourceId version digest : Str)
  deriving DecidableEq

def VersionBinding.key (b : VersionBinding) : Str × Str := (b.resourceType.text, b.resourceId)

def VersionBinding.valid (b : VersionBinding) : Bool :=
  b.resourceId ≠ [] ∧ b.version ≠ [] ∧ hexDigest b.digest

def textLe : Str → Str → Bool
  | [], _ => true
  | _ :: _, [] => false
  | a :: as, b :: bs => a.toNat < b.toNat || (a = b && textLe as bs)

def keyLe (a b : Str × Str) : Bool := if a.1 = b.1 then textLe a.2 b.2 else textLe a.1 b.1

/-- The binding in its place among sorted ones. -/
def VersionBinding.place (b : VersionBinding) : List VersionBinding → List VersionBinding
  | [] => [b]
  | x :: xs => if keyLe b.key x.key then b :: x :: xs else x :: b.place xs

/-- The loop of `_canonical_bindings`: one binding for each resource, or two that differ. -/
def collect (seen : List VersionBinding) : List VersionBinding → Option (List VersionBinding)
  | [] => some seen
  | b :: rest =>
    match seen.find? fun x => x.key = b.key with
    | some x => if x = b then collect seen rest else none
    | none => collect (seen ++ [b]) rest

/-- `canonical_version_bindings`, unless it raises. -/
def canonicalVersionBindings (bindings : List VersionBinding) : Option (List VersionBinding) :=
  (collect [] bindings).map fun found => found.foldr VersionBinding.place []

def unusedTypes (bindings : List VersionBinding) : List ResourceType :=
  ResourceType.all.filter fun t => bindings.all fun b => b.resourceType ≠ t

/-! ## Manifests -/

/-- The columns of `task_version_binding_manifests`. -/
structure ManifestRow where
  taskId : Str
  bindings : List VersionBinding
  unusedResourceTypes : List ResourceType
  manifestDigest : Str
  lockedAt : Time
  deriving DecidableEq

structure GateEnv where
  /-- `task_version_manifest_digest`. -/
  digest : Str → List VersionBinding → List ResourceType → Str

/-- `validate_canonical_manifest`, and the checks of the fields. -/
def ManifestRow.valid (env : GateEnv) (m : ManifestRow) : Bool :=
  m.taskId ≠ [] ∧ m.bindings ≠ [] ∧ (m.bindings.all VersionBinding.valid) ∧
    hexDigest m.manifestDigest ∧ canonicalVersionBindings m.bindings = some m.bindings ∧
    m.unusedResourceTypes = unusedTypes m.bindings ∧
    m.manifestDigest = env.digest m.taskId m.bindings m.unusedResourceTypes

/-- `TaskVersionBindingManifest`. -/
abbrev Manifest (env : GateEnv) : Type := { m : ManifestRow // m.valid env = true }

variable {env : GateEnv}

def Manifest.assertBindings (m : Manifest env) (bindings : List VersionBinding) (exact : Bool) :
    Except GateError Unit :=
  match canonicalVersionBindings bindings with
  | none => .error .mismatch
  | some actual => do
    ensure (exact → (actual.all fun b => m.val.bindings.any fun x => x.key = b.key) ∧
      (m.val.bindings.all fun x => actual.any fun b => b.key = x.key)) .mismatch
    ensure (actual.all fun b => (m.val.bindings.find? fun x => x.key = b.key) = some b) .mismatch

/-- What both gates make of the manifest that they have for a task. -/
def assertManifest (bindings : List VersionBinding) (exact allowUnbound : Bool) :
    Option (Manifest env) → Except GateError Unit
  | none => ensure allowUnbound .mismatch
  | some m => m.assertBindings bindings exact

/-! ## Requests and decisions -/

structure RequestRow where
  (requestId taskId requestedForAiUserId requestedSessionId requestedTenantId actionDigest : Str)
  (requestDigest bindingManifestDigest : Str)
  (requestedAt expiresAt : Time)
  deriving DecidableEq

/-- `validate_validity_window`, and the checks of the fields. -/
def RequestRow.valid (r : RequestRow) : Bool :=
  r.requestId ≠ [] ∧ r.taskId ≠ [] ∧ r.requestedForAiUserId ≠ [] ∧ r.requestedSessionId ≠ [] ∧
    r.requestedTenantId ≠ [] ∧ hexDigest r.actionDigest ∧ hexDigest r.requestDigest ∧
    hexDigest r.bindingManifestDigest ∧ r.requestedAt < r.expiresAt

/-- `HumanGateRequest`. -/
abbrev Request : Type := { r : RequestRow // r.valid = true }

inductive Verdict where
  | confirmed | rejected
  deriving DecidableEq, Repr

/-- The fields of `HumanGateDecisionRecord`. -/
structure DecisionRow where
  (requestId taskId decidedByAiUserId decidedSessionId decidedTenantId : Str)
  decision : Verdict
  (requestDigest bindingManifestDigest : Str)
  decidedAt : Time
  deriving DecidableEq

def DecisionRow.valid (d : DecisionRow) : Bool :=
  d.requestId ≠ [] ∧ d.taskId ≠ [] ∧ d.decidedByAiUserId ≠ [] ∧ d.decidedSessionId ≠ [] ∧
    d.decidedTenantId ≠ [] ∧ hexDigest d.requestDigest ∧ hexDigest d.bindingManifestDigest

/-- `HumanGateDecisionRecord`. -/
abbrev Decision : Type := { d : DecisionRow // d.valid = true }

/-- `_decision_matches_request`. -/
def DecisionRow.matches (d : DecisionRow) (r : RequestRow) : Bool :=
  d.taskId = r.taskId ∧ d.decidedByAiUserId = r.requestedForAiUserId ∧
    d.decidedSessionId = r.requestedSessionId ∧ d.decidedTenantId = r.requestedTenantId ∧
    d.requestDigest = r.requestDigest ∧ d.bindingManifestDigest = r.bindingManifestDigest ∧
    r.requestedAt ≤ d.decidedAt ∧ d.decidedAt ≤ r.expiresAt

/-! ## Calls -/

inductive GateCall (env : GateEnv) where
  | bindTask (manifest : Manifest env)
  | assertTaskBindings (taskId : Str) (bindings : List VersionBinding) (exact allowUnbound : Bool)
  | getTaskBinding (taskId : Str)
  | createRequest (request : Request)
  | getRequest (requestId : Str)
  | recordDecision (decision : Decision)
  | getDecision (requestId : Str)

inductive GateAnswer (env : GateEnv) where
  | done
  | manifest (found : Option (Manifest env))
  | request (found : Option Request)
  | decision (found : Option Decision)
  deriving DecidableEq

end EternalAI.HumanGate
