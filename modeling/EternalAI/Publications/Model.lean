import EternalAI.Leases.Model

/-!
# Browser publications — rows and transactions

A publication binds one version of a browser skill to the site, the verifier and the
capability it was audited with. It is prepared, becomes the active head of its skill
and is retired, in one row of `browser_publications`. The model follows
`PostgreSQLBrowserPublicationStore` in `app/infra/persistence/browser/publications.py`.

* Every transaction takes the advisory lock of its skill before it reads; it is one
  step from the rows at that moment. It refuses, or returns the rows to be committed
  under the keys of the table: the digest, the version and the one active head.
* The authority, the review and the capability registry are asked; their answers are
  arbitrary.
-/

namespace EternalAI.Publications

open Lib
open Dispatch (Str)
open Leases (Owner)

/-! ## Vocabulary -/

/-- The codes of `BrowserPublicationError`; `validation` is a refusal of a type
adapter outside of it. -/
inductive PubError where
  | manifestInvalid | referenceInvalid | storageInvalid | denied | sourceDenied
  | capabilityUnavailable | capabilityChanged | registryUnavailable
  | conflict | storeUnavailable | rollbackSourceInvalid | alreadyPrepared | versionConflict
  | reviewRequired | headRequired | initialInvalid | revisionInvalid | notFound
  | revisionConflict | reviewUnavailable | reviewDenied | headChanged
  | validation
  deriving DecidableEq, Repr

inductive PubState where
  | prepared | active | inactive
  deriving DecidableEq, Repr

def PubState.revision : PubState → Nat
  | .prepared => 0
  | .active => 1
  | .inactive => 2

inductive SourceKind where
  | registeredSyntheticFixture | registeredSite
  deriving DecidableEq, Repr

inductive PubEffect where
  | readOnly | controlledWrite
  deriving DecidableEq, Repr

inductive PubMode where
  | browserAsync | dFormFillStop
  deriving DecidableEq, Repr

/-- A skill: the columns that a rollback may change, and the rest of its document. -/
structure Skill where
  (skillId version digest siteDigest rest : Str)
  deriving DecidableEq

/-- A site, in the same way. -/
structure Site where
  (version digest rest : Str)
  deriving DecidableEq

/-- `VersionBinding`. -/
structure Binding where
  (name digest : Str)
  deriving DecidableEq

/-- `BrowserPublicationManifest`. -/
structure Manifest where
  digest : Str
  skill : Skill
  site : Site
  (verifier output capabilitySnapshotJson : Str)
  capabilityBindings : List Binding
  sourceKind : SourceKind
  effect : PubEffect
  executionMode : PubMode
  rollbackSourceDigest : Option Str
  deriving DecidableEq

def Manifest.capabilityDigest (manifest : Manifest) : Option Str :=
  manifest.capabilityBindings.head?.map Binding.digest

inductive CapabilityType where
  | action | query | other
  deriving DecidableEq, Repr

structure Capability where
  active : Bool
  type : CapabilityType
  snapshotJson : Str
  bindings : List Binding

/-- A row of `browser_publications`. -/
structure Row where
  (tenantId publicationDigest skillId skillVersion capabilityId : Str)
  capabilityDigest : Option Str
  manifest : Manifest
  state : PubState
  activationRevision : Nat
  deriving DecidableEq

def Row.key (row : Row) : Str × Str := (row.tenantId, row.publicationDigest)

def Row.head (row : Row) : Str × Str := (row.tenantId, row.skillId)

def Row.version (row : Row) : Str × Str × Str := (row.tenantId, row.skillId, row.skillVersion)

/-- `BrowserPublicationRecord`. -/
structure Record where
  manifest : Manifest
  state : PubState
  activationRevision : Nat
  deriving DecidableEq

abbrev State := List Row

/-- The fixed synthetic sources of a deployment, which differ in their versions. -/
structure Fixed where
  tenant : Str
  (query diagnostic visible : Manifest)
  observe : Option Str → Manifest
  query_version : query.skill.version = "v1".toList
  diagnostic_version : diagnostic.skill.version = "v2_diagnostic_2".toList
  visible_version : visible.skill.version = "v3_visible_complete".toList

/-- What the store is installed with: the validation of a manifest, the id of the
capability in its snapshot, and the fixed sources. -/
structure PubEnv where
  valid : Manifest → Bool
  capabilityId : Manifest → Str
  fixed : Fixed

/-- How the current capability is seen: in the transaction, or in the registry and then
in its locked row. -/
inductive CapabilityLook where
  | inSession (current : Except PubError (Option Capability))
  | generic (registry : Except PubError (Option Capability)) (row : Option Capability)

/-- The answers during one operation: the grants in the order they are asked for,
`verify_manifest`, the capability, `authorize_fixed_initial` before and in the
transaction, and the review, if there is one. -/
structure Answers where
  permitted : Nat → Bool
  source : Bool
  capability : CapabilityLook
  fixedInitial : Nat → Bool
  review : Option (Option Bool)

/-! ## Checks -/

def opaqueId (value : Str) : Bool :=
  1 ≤ value.length ∧ value.length ≤ 96 ∧ value.all fun c => c.isAlphanum || c = '_' || c = '-'

/-- `Digest`. -/
def hexDigest (value : Str) : Bool :=
  value.length = 64 ∧ value.all fun c => c.isDigit || 'a' ≤ c ∧ c ≤ 'f'

def PubEnv.manifest (env : PubEnv) (value : Manifest) : Except PubError Manifest := do
  ensure (env.valid value) .manifestInvalid
  pure value

section

variable (env : PubEnv) (manifest : Manifest)

/-- `_record`, with the validator of `BrowserPublicationRecord`. -/
def PubEnv.record (row : Row) : Except PubError Record := do
  ensure (env.valid row.manifest ∧ row.publicationDigest = row.manifest.digest ∧
    row.skillId = row.manifest.skill.skillId ∧ row.skillVersion = row.manifest.skill.version ∧
    row.capabilityId = env.capabilityId row.manifest ∧
    row.capabilityDigest = row.manifest.capabilityDigest ∧
    row.activationRevision = row.state.revision) .storageInvalid
  pure ⟨row.manifest, row.state, row.activationRevision⟩

def rollbackCompatible (source candidate : Manifest) : Bool :=
  candidate.sourceKind = .registeredSite ∧ source.sourceKind = .registeredSite ∧
    candidate.rollbackSourceDigest = some source.digest ∧
    candidate.skill.skillId = source.skill.skillId ∧
    candidate.skill.version ≠ source.skill.version ∧
    candidate.site.version ≠ source.site.version ∧ candidate.site.rest = source.site.rest ∧
    candidate.skill.rest = source.skill.rest ∧ candidate.verifier = source.verifier ∧
    candidate.output = source.output ∧
    candidate.capabilitySnapshotJson = source.capabilitySnapshotJson ∧
    candidate.capabilityBindings = source.capabilityBindings ∧
    candidate.effect = source.effect ∧ candidate.executionMode = source.executionMode

/-- `_authorize`, asked for the `n`-th time. -/
def Answers.authorize (answers : Answers) (n : Nat) : Except PubError Unit :=
  ensure (answers.permitted n) .denied

def Manifest.compare : Option Capability → Except PubError Unit
  | none => .error .capabilityUnavailable
  | some current => do
    ensure (current.active ∧
      current.type = if manifest.effect = .controlledWrite then .action else .query)
      .capabilityUnavailable
    ensure (current.snapshotJson = manifest.capabilitySnapshotJson ∧
      current.bindings = manifest.capabilityBindings) .capabilityChanged

def CapabilityLook.check : CapabilityLook → Except PubError Unit
  | .inSession current => do
    let current ← current
    manifest.compare current
  | .generic registry row => do
    let current ← registry
    manifest.compare current
    manifest.compare row

def Answers.current (answers : Answers) (manifest : Manifest) : Except PubError Unit := do
  answers.capability.check manifest
  ensure answers.source .sourceDenied

/-! ## Preparation -/

def only (p : Record → Bool) : List Record → Bool
  | [record] => p record
  | _ => false

/-- What a preparation may find: anything that suits its source, exactly these retired
manifests, or retired ones only. -/
inductive Lineage where
  | plain
  | after (history : List Manifest)
  | observe

def State.versions (s : State) (tenantId skillId : Str) : List Row :=
  s.filter fun row => row.head = (tenantId, skillId)

/-- The source of a rollback is a retired version that the candidate repeats. -/
def PubEnv.rollbackSource (previous : List Row) (manifest : Manifest) : Except PubError Unit :=
  match manifest.rollbackSourceDigest with
  | none => .ok ()
  | some digest => do
    let source ← (previous.filter fun row => row.publicationDigest = digest).mapM env.record
    ensure (only (fun record => record.state = .inactive ∧
      rollbackCompatible record.manifest manifest) source) .rollbackSourceInvalid

/-- A record that is already there is the answer, if it is still prepared. -/
def already (new : List Record) : Except PubError (Option Record) :=
  match new with
  | [] => .ok none
  | record :: _ => do
    ensure (record.state = .prepared ∧ record.activationRevision = 0) .alreadyPrepared
    pure (some record)

def recordsOf (records : List Record) : List Record :=
  records.filter fun record => record.manifest = manifest

/-- A registered site may add a version while the previous head serves: one unreviewed
candidate, and no version twice. -/
def PubEnv.admitsRegistered (previous : List Row) : Except PubError (Option Record) := do
  let records ← previous.mapM env.record
  match recordsOf manifest records with
  | [] => do
    ensure (∀ record ∈ records, record.state ≠ .prepared ∧
      record.manifest.skill.version ≠ manifest.skill.version) .versionConflict
    pure none
  | same :: rest => do
    ensure (rest = [] ∧ same.state = .prepared) .alreadyPrepared
    pure (some same)

/-- A fixture is prepared once. -/
def PubEnv.admitsFixture : List Row → Except PubError (Option Record)
  | [] => .ok none
  | row :: rest => do
    let existing ← env.record row
    ensure (rest = [] ∧ existing.manifest = manifest ∧ existing.state = .prepared) .alreadyPrepared
    pure (some existing)

/-- A preparation without a lineage of its own. -/
def PubEnv.admitsPlain (previous : List Row) : Except PubError (Option Record) :=
  if manifest.sourceKind = .registeredSite then env.admitsRegistered manifest previous
  else env.admitsFixture manifest previous

/-- The history conditions of a preparation: the record that is already there, if the
manifest was prepared before, or nothing if it may be inserted. -/
def Lineage.admits (previous : List Row) : Lineage → Except PubError (Option Record)
  | .observe => do
    let records ← previous.mapM env.record
    ensure ((recordsOf manifest records).length ≤ 1 ∧
      ∀ record ∈ records, record.manifest ≠ manifest → record.state = .inactive) .alreadyPrepared
    already (recordsOf manifest records)
  | .after history => do
    let records ← previous.mapM env.record
    ensure ((∀ expected ∈ history, only (fun record => record.state = .inactive ∧
        record.activationRevision = 2) (recordsOf expected records)) ∧
      records.length = history.length + (recordsOf manifest records).length ∧
      (recordsOf manifest records).length ≤ 1) .alreadyPrepared
    already (recordsOf manifest records)
  | .plain => env.admitsPlain manifest previous

def PubEnv.candidate (tenantId : Str) (manifest : Manifest) : Row where
  tenantId := tenantId
  publicationDigest := manifest.digest
  skillId := manifest.skill.skillId
  skillVersion := manifest.skill.version
  capabilityId := env.capabilityId manifest
  capabilityDigest := manifest.capabilityDigest
  manifest := manifest
  state := .prepared
  activationRevision := 0

/-- The insertion of a row, under the primary key and the unique version. -/
def State.insert (s : State) (row : Row) : Except PubError State := do
  ensure (∀ r ∈ s, r.key ≠ row.key ∧ r.version ≠ row.version) .conflict
  pure (s ++ [row])

/-- The transaction of `_prepare`. -/
def State.prepare (owner : Owner) (manifest : Manifest) (lineage : Lineage) (answers : Answers)
    (s : State) : Except PubError (Record × State) := do
  answers.authorize 1
  answers.current manifest
  ensure (opaqueId manifest.skill.skillId ∧ hexDigest manifest.digest) .referenceInvalid
  let previous := s.versions owner.tenantId manifest.skill.skillId
  env.rollbackSource previous manifest
  let found ← lineage.admits env manifest previous
  match found with
  | some record => pure (record, s)
  | none => do
    let row := env.candidate owner.tenantId manifest
    let s ← s.insert row
    let record ← env.record row
    pure (record, s)

end

/-! ## Activation and deactivation -/

inductive Operation where
  | activate | deactivate
  deriving DecidableEq, Repr

def Operation.before : Operation → PubState
  | .activate => .prepared
  | .deactivate => .active

def Operation.after : Operation → PubState
  | .activate => .active
  | .deactivate => .inactive

/-- What a transition is based on: nothing, a stored review, a verified first run, or
the grant of a fixed source. -/
inductive Grounds where
  | plain
  | reviewed (manifest : Manifest)
  | initial (manifest : Manifest)
  | fixedInitial (manifest : Manifest)
  deriving DecidableEq

def Grounds.isInitial : Grounds → Bool
  | .initial _ => true
  | _ => false

/-- The answer of the review about a manifest that must be the recorded one. A refusal of
the comparison is caught like any failure of the review. -/
def Answers.reviewed (answers : Answers) (checked recorded : Manifest) : Except PubError Unit :=
  match answers.review with
  | none => .error .reviewRequired
  | some answer =>
    if checked ≠ recorded then .error .reviewUnavailable
    else match answer with
      | none => .error .reviewUnavailable
      | some accepted => ensure accepted .reviewDenied

def Grounds.suffice (answers : Answers) (recorded : Manifest) : Grounds → Except PubError Unit
  | .plain => .error .reviewRequired
  | .reviewed manifest | .initial manifest => answers.reviewed manifest recorded
  | .fixedInitial manifest =>
    ensure (manifest = recorded ∧ answers.fixedInitial 1) .reviewRequired

def Grounds.allow (answers : Answers) (operation : Operation) (record : Record)
    (grounds : Grounds) : Except PubError Unit :=
  if operation = .activate ∧ record.manifest.sourceKind = .registeredSite then
    grounds.suffice answers record.manifest
  else .ok ()

def State.active (s : State) (tenantId skillId : Str) : Option Row :=
  s.find? fun row => row.head = (tenantId, skillId) ∧ row.state = .active

def Row.moved (row : Row) (state : PubState) : Row :=
  { row with state := state, activationRevision := row.activationRevision + 1 }

/-- `UPDATE … SET state, activation_revision+1 WHERE` the digest, the state and the
revision. -/
def State.move (s : State) (key : Str × Str) (before after : PubState) (revision : Nat) : State :=
  s.map fun row => if row.key = key ∧ row.state = before ∧ row.activationRevision = revision then
    row.moved after else row

section

variable (s : State) (env : PubEnv) (owner : Owner) (skillId : Str)

/-- The head that a registered candidate replaces, retired. -/
def State.retire (grounds : Grounds) (expectedActive : Option Str) (answers : Answers) (s : State) :
    Except PubError State := do
  let prior := s.active owner.tenantId skillId
  ensure (∀ digest ∈ expectedActive, prior.map Row.publicationDigest = some digest) .headChanged
  ensure (grounds.isInitial → prior = none) .headChanged
  match prior with
  | none => pure s
  | some row => do
    let previous ← env.record row
    answers.authorize 2
    pure (s.move (owner.tenantId, previous.manifest.digest) .active .inactive 1)

def State.singleHeads : Prop :=
  ∀ row ∈ s, ∀ row' ∈ s, row.state = .active → row'.state = .active → row.head = row'.head →
    row.key = row'.key

instance : Decidable s.singleHeads := by
  unfold State.singleHeads
  infer_instance

/-- What only an activation checks and does before its own update. -/
def State.clear (record : Record) (operation : Operation) (grounds : Grounds)
    (expectedActive : Option Str) (answers : Answers) (s : State) : Except PubError State :=
  match operation with
  | .deactivate => .ok s
  | .activate => do
    answers.current record.manifest
    if record.manifest.sourceKind = .registeredSite then
      s.retire env owner skillId grounds expectedActive answers
    else pure s

/-- The transaction of `_transition`. -/
def State.transition (digest : Str) (expectedRevision : Nat) (operation : Operation)
    (grounds : Grounds) (expectedActive : Option Str) (answers : Answers) (s : State) :
    Except PubError (Record × State) := do
  let key := (owner.tenantId, digest)
  match lookup Row.key key s with
  | none => .error .notFound
  | some row => do
    let record ← env.record row
    ensure (record.manifest.skill.skillId = skillId ∧ record.state = operation.before ∧
      record.activationRevision = expectedRevision) .revisionConflict
    grounds.allow answers operation record
    answers.authorize 1
    let s ← s.clear env owner skillId record operation grounds expectedActive answers
    match lookup Row.key key s with
    | none => .error .storeUnavailable
    | some current => do
      ensure (current.state = operation.before ∧ current.activationRevision = expectedRevision)
        .storeUnavailable
      let s := s.move key operation.before operation.after expectedRevision
      ensure s.singleHeads .conflict
      let updated ← env.record (current.moved operation.after)
      pure (updated, s)

end

end EternalAI.Publications
