import EternalAI.Dispatch.Lifecycle
import Mathlib.Data.List.Forall2

/-!
# Dispatched tasks — what an actor cannot see

`get_dispatch_lifecycle` and `get_dispatch_events` of
`app/infra/persistence/work_object/postgresql.py`, and a property of two stores.
Privacy is decided twice: the query of the relations masks columns by
`relation_participant_sql`, the view masks them by `relation_private_allowed`.

* `Relation.published` — a relation without its private columns.
* `participant_hidden`, `seen_hidden` — of a relation that is not private to an
  actor nothing but the published columns is looked at.
* `projectLifecycle_congr` — the view depends on what is seen of the relations.
* `private_columns_hidden` — two stores that differ only in the private columns
  of such relations look the same.
-/

namespace EternalAI.Dispatch

open Lib List

variable {env : Env} {scope : Scope} {now : Tick} {r r₁ r₂ : Relation} {task₁ task₂ : Task}

/-! ## What a client reads -/

def getDispatchLifecycle (env : Env) (scope : Scope) (clock : Clock) (stored : Option Task) :
    Except DispatchError LifecycleView := do
  let loaded ← loadLifecycleView env scope (clock.reading 0) (clock.reading 1) stored
  recheckScope scope (clock.reading 2)
  pure loaded.2

structure LifecycleEventsView where
  items : List Event
  nextAfterVersion : Option Nat
  deriving DecidableEq

section

variable (scope : Scope) (r : Relation)

/-- The rows of the query in `get_dispatch_events`, without its limit. -/
def visibleEvents (now : Tick) (afterVersion : Int) (task : Task) : List Event :=
  (task.events.filter fun e => eventVisible scope now task e &&
    decide (afterVersion < e.resultVersion)).insertionSort fun a b =>
      a.resultVersion ≤ b.resultVersion

/-- A page of the rows, of which one more than the limit was asked for. Each
row is validated. -/
def eventsPage (limit : Nat) (rows : List Event) : Except DispatchError LifecycleEventsView :=
  let page := rows.take limit
  if page.all (2 ≤ ·.resultVersion) then
    .ok {
      items := page
      nextAfterVersion := if limit < (rows.take (limit + 1)).length then
        page.getLast?.map (·.resultVersion) else none }
  else .error (.validationError "result_version")

def getDispatchEvents (clock : Clock) (afterVersion limit : Int) (stored : Option Task) :
    Except DispatchError LifecycleEventsView :=
  if ¬ (1 ≤ limit ∧ limit ≤ 100) ∨ afterVersion < 0 then .error .workObjectLifecycleRequestInvalid
  else do
    let task ← loadManualRoot scope (clock.reading 0) stored
    let rows := visibleEvents scope (clock.reading 1) afterVersion task
    recheckScope scope (clock.reading 2)
    eventsPage limit.toNat rows

/-! ## Stores that differ in private columns -/

/-- A relation without its private columns: the assignee, the acceptance, the
review, and a result that is not published yet. -/
def Relation.published : Relation :=
  { r with
    assigneeDirectoryUserId := none
    assigneeAiUserId := none
    acceptedAt := none
    acceptedByAiUserId := none
    submittedAt := if r.status = .submitted then r.submittedAt else none
    submittedByAiUserId := if r.status = .submitted then r.submittedByAiUserId else none
    submittedResult := if r.status = .submitted then r.submittedResult else none
    reviewedAt := none
    reviewedByAiUserId := none
    reviewResult := none
    reviewReason := none }

/-- The relation is not private to the actor: neither for
`relation_private_allowed`, nor because the query takes the actor for its
assignee. -/
def Hidden : Prop :=
  relationPrivateAllowed r scope = false ∧
    (r.supersededAt = none → sqlEq r.assigneeDirectoryUserId scope.directoryUserId = false)

instance : Decidable (Hidden scope r) :=
  inferInstanceAs (Decidable (_ ∧ _))

/-- Two rows that differ at most in private columns that the actor must not
see. -/
def Relation.Alike (r₁ r₂ : Relation) : Prop :=
  r₁ = r₂ ∨ (Hidden scope r₁ ∧ Hidden scope r₂ ∧ r₁.published = r₂.published)

end

/-- Two stores of a task that differ in nothing else. -/
structure Task.Alike (scope : Scope) (task₁ task₂ : Task) : Prop where
  relations : List.Forall₂ (Relation.Alike scope) task₁.relations task₂.relations
  rest : task₂ = { task₁ with relations := task₂.relations }

structure World.Alike (scope : Scope) (w₁ w₂ : World) : Prop where
  tasks : ∀ id, Option.Rel (Task.Alike scope) (w₁.tasks id) (w₂.tasks id)
  rest : w₂ = { w₁ with tasks := w₂.tasks }

/-! ## One relation -/

/-- The query takes an actor for a participant of such a relation only because
of its target. -/
theorem participant_hidden (hHidden : Hidden scope r) :
    participant scope now r = (r.supersededAt.isNone && (r.targetKind == .user &&
      sqlEq r.targetDirectoryUserId scope.directoryUserId)) := by
  unfold participant
  cases hLive : r.supersededAt with
  | some t => rfl
  | none =>
    obtain ⟨hPrivate, hAssignee⟩ := hHidden
    unfold relationPrivateAllowed relationActorAllowed relationHeadAllowed at hPrivate
    simp only [hLive, Option.isNone_none, Bool.true_and, Bool.or_eq_false_iff] at hPrivate
    obtain ⟨⟨hAi, -⟩, hHead⟩ := hPrivate
    -- a scope that has lapsed passes no departments on, so its head is none to the query
    have hHeadNow : (r.targetKind == .department &&
        decide (r.targetDepartmentId ∈ scope.responsibleAt now)) = false := by
      rw [Bool.and_eq_false_iff] at hHead ⊢
      refine hHead.imp_right fun hOut => ?_
      unfold Scope.responsibleAt
      split
      · exact hOut
      · simp
    simp [hAi, hAssignee hLive, hHeadNow]

/-- The row that the actor sees of it. -/
def Relation.outside (r : Relation) : RelationView where
  relationId := r.relationId
  target := r.target
  role := r.role
  status := r.status
  assigneeDirectoryUserId := none
  acceptedAt := none
  submittedAt := if r.status = .submitted then r.submittedAt else none
  submittedResult := if r.status = .submitted then r.submittedResult else none
  reviewedAt := none
  reviewResult := none
  reviewReason := none
  availableCommands := []

/-- All that the view of a task takes from one of its relations. -/
structure Seen where
  createdAt : Time
  relationId : Uuid
  role : Role
  status : RelationStatus
  lead : Bool
  view : RelationView

def Relation.seen (scope : Scope) (frozen : Bool) (r : Relation) : Seen where
  createdAt := r.createdAt
  relationId := r.relationId
  role := r.role
  status := r.status
  lead := leadAllowed r scope
  view := r.view scope frozen

theorem projected_private (now : Tick) : relationPrivateAllowed (r.projected scope now) scope =
    relationPrivateAllowed r scope := by
  unfold Relation.projected
  split <;> rfl

/-- **Nothing private is seen of a relation that is not private to the actor.** -/
theorem seen_hidden (hHidden : Hidden scope r) (frozen : Bool) :
    (r.projected scope now).seen scope frozen =
      ⟨r.createdAt, r.relationId, r.role, r.status, false, r.outside⟩ := by
  have hPrivate := (projected_private now).trans hHidden.1
  obtain ⟨hActor, hHead⟩ : relationActorAllowed (r.projected scope now) scope = false ∧
      relationHeadAllowed (r.projected scope now) scope = false := by
    simpa [relationPrivateAllowed] using hPrivate
  have hLead : leadAllowed (r.projected scope now) scope = false := by
    unfold leadAllowed
    split
    · exact hHead
    · exact hActor
  have hActions : relationActions (r.projected scope now) scope frozen = [] := by
    simp [relationActions, headActions, actorActions, hHead, hActor]
  have hView : (r.projected scope now).view scope frozen = r.outside := by
    unfold Relation.view
    rw [hPrivate, hActions]
    unfold Relation.projected Relation.outside
    split
    · simp
    · by_cases hDone : r.status = .submitted <;> simp [hDone, Relation.target]
  unfold Relation.seen
  rw [hLead, hView]
  unfold Relation.projected
  split <;> rfl

theorem published_eq (hSame : r₁.published = r₂.published) :
    r₁.createdAt = r₂.createdAt ∧ r₁.relationId = r₂.relationId ∧ r₁.role = r₂.role ∧
      r₁.status = r₂.status ∧ r₁.supersededAt = r₂.supersededAt ∧
      r₁.targetKind = r₂.targetKind ∧ r₁.targetDirectoryUserId = r₂.targetDirectoryUserId ∧
      r₁.outside = r₂.outside := by
  have hOutside : ∀ r : Relation, r.outside = r.published.outside := by
    intro r
    unfold Relation.outside Relation.published Relation.target
    by_cases hDone : r.status = .submitted <;> simp [hDone]
  refine ⟨?_, ?_, ?_, ?_, ?_, ?_, ?_, ?_⟩
  · exact congrArg (·.createdAt) hSame
  · exact congrArg (·.relationId) hSame
  · exact congrArg (·.role) hSame
  · exact congrArg (·.status) hSame
  · exact congrArg (·.supersededAt) hSame
  · exact congrArg (·.targetKind) hSame
  · exact congrArg (·.targetDirectoryUserId) hSame
  · rw [hOutside r₁, hOutside r₂, hSame]

theorem Relation.Alike.participant (hAlike : r₁.Alike scope r₂) (now : Tick) :
    participant scope now r₁ = participant scope now r₂ := by
  rcases hAlike with rfl | ⟨hHidden₁, hHidden₂, hSame⟩
  · rfl
  · obtain ⟨-, -, -, -, hLive, hKind, hUser, -⟩ := published_eq hSame
    rw [participant_hidden hHidden₁, participant_hidden hHidden₂, hLive, hKind, hUser]

theorem Relation.Alike.seen (hAlike : r₁.Alike scope r₂) (now : Tick) (frozen : Bool) :
    (r₁.projected scope now).seen scope frozen = (r₂.projected scope now).seen scope frozen := by
  rcases hAlike with rfl | ⟨hHidden₁, hHidden₂, hSame⟩
  · rfl
  · obtain ⟨hCreated, hId, hRole, hStatus, -, -, -, hOutside⟩ := published_eq hSame
    rw [seen_hidden hHidden₁, seen_hidden hHidden₂, hCreated, hId, hRole, hStatus, hOutside]

theorem Relation.Alike.keys (hAlike : r₁.Alike scope r₂) :
    r₁.relationId = r₂.relationId ∧ r₁.supersededAt = r₂.supersededAt := by
  rcases hAlike with rfl | ⟨-, -, hSame⟩
  · exact ⟨rfl, rfl⟩
  · obtain ⟨-, hId, -, -, hLive, -⟩ := published_eq hSame
    exact ⟨hId, hLive⟩

/-! ## The relations of a task -/

variable {table₁ table₂ : List Relation}

/-- A test on single rows that does not tell alike rows apart does not tell
alike tables apart. -/
theorem any_alike {p : Relation → Bool} (hAlike : List.Forall₂ (Relation.Alike scope) table₁ table₂)
    (hp : ∀ r₁ r₂, r₁.Alike scope r₂ → p r₁ = p r₂) : table₁.any p = table₂.any p := by
  induction hAlike with
  | nil => rfl
  | cons hHead _ ih => rw [any_cons, any_cons, hp _ _ hHead, ih]

theorem current_seen (hAlike : List.Forall₂ (Relation.Alike scope) table₁ table₂) (now : Tick)
    (frozen : Bool) :
    (current table₁).map (fun r => (r.projected scope now).seen scope frozen) =
      (current table₂).map (fun r => (r.projected scope now).seen scope frozen) := by
  induction hAlike with
  | nil => rfl
  | @cons r₁ r₂ table₁ table₂ hHead _ ih =>
    unfold current at ih ⊢
    rw [filter_cons, filter_cons, hHead.keys.2]
    split
    · rw [map_cons, map_cons, hHead.seen, ih]
    · exact ih

def Seen.before (a b : Seen) : Prop :=
  a.createdAt < b.createdAt ∨ (a.createdAt = b.createdAt ∧ a.relationId ≤ b.relationId)

instance (a b : Seen) : Decidable (Seen.before a b) := inferInstanceAs (Decidable (_ ∨ _))

/-- **The same is seen of the relations of two such tables**, in the same
order. -/
theorem loadRelations_seen (hAlike : List.Forall₂ (Relation.Alike scope) table₁ table₂) (now : Tick)
    (frozen : Bool) :
    (loadRelations scope now table₁).map (·.seen scope frozen) =
      (loadRelations scope now table₂).map (·.seen scope frozen) := by
  -- the order depends on the creation and the id only, which are seen
  have hSort : ∀ rs : List Relation,
      (rs.insertionSort fun a b => a.before b = true).map (·.seen scope frozen) =
        (rs.map (·.seen scope frozen)).insertionSort Seen.before := fun rs =>
    map_insertionSort _ _ _ rs fun a _ b _ => by
      simp [Relation.before, Seen.before, Relation.seen]
  unfold loadRelations
  rw [hSort, hSort, map_map, map_map]
  exact congrArg _ (current_seen hAlike now frozen)

/-! ## The view of a task -/

/-- `leadActions`, from what is seen. -/
def seenLeadActions (root : Root) (seen : List Seen) : List LifecycleOperation :=
  if !root.frozen && root.dispatchMode == some .collaborative then
    match seen.find? (·.role == .lead) with
    | some lead => if lead.lead && seen.all (·.status == .submitted) then [.submitSummary] else []
    | none => []
  else []

theorem leadActions_seen (root : Root) (rs : List Relation) (frozen : Bool) :
    leadActions root rs scope = seenLeadActions root (rs.map (·.seen scope frozen)) := by
  unfold leadActions seenLeadActions
  rw [find?_map, all_map]
  simp only [Function.comp_def, Relation.seen]
  cases rs.find? fun r => r.role == Role.lead <;> rfl

/-- **The view depends on what is seen of the relations only.** -/
theorem projectLifecycle_congr {root : Root} {rs₁ rs₂ : List Relation}
    (hSeen : rs₁.map (·.seen scope root.frozen) = rs₂.map (·.seen scope root.frozen)) :
    projectLifecycle root rs₁ scope = projectLifecycle root rs₂ scope := by
  have hViews : rs₁.map (·.view scope root.frozen) = rs₂.map (·.view scope root.frozen) := by
    simpa [Function.comp_def, Relation.seen] using congrArg (List.map Seen.view) hSeen
  have hLead : leadActions root rs₁ scope = leadActions root rs₂ scope := by
    rw [leadActions_seen root rs₁ root.frozen, leadActions_seen root rs₂ root.frozen, hSeen]
  unfold projectLifecycle
  rw [hViews, hLead]

section

variable (hAlike : task₁.Alike scope task₂)

include hAlike

theorem Task.Alike.root : task₂.root = task₁.root := by
  rw [hAlike.rest]

theorem Task.Alike.events : task₂.events = task₁.events := by
  rw [hAlike.rest]

theorem Task.Alike.rootVisible (now : Tick) :
    rootVisible scope now task₁ = rootVisible scope now task₂ := by
  unfold Dispatch.rootVisible
  rw [hAlike.root, any_alike hAlike.relations fun _ _ hRow => hRow.participant now]

theorem Task.Alike.eventVisible (now : Tick) (e : Event) :
    eventVisible scope now task₁ e = eventVisible scope now task₂ e := by
  unfold Dispatch.eventVisible
  rw [hAlike.root, hAlike.rootVisible now, any_alike hAlike.relations fun r₁ r₂ hRow => by
    rw [hRow.participant now, hRow.keys.1]]

theorem Task.Alike.view (now : Tick) :
    projectLifecycle task₁.root (viewRelations env scope now task₁) scope =
      projectLifecycle task₂.root (viewRelations env scope now task₂) scope := by
  rw [hAlike.root]
  refine projectLifecycle_congr ?_
  unfold viewRelations
  rw [hAlike.root]
  have hLoaded := loadRelations_seen hAlike.relations now task₁.root.frozen
  split
  · split
    · rfl
    · exact hLoaded
  · exact hLoaded

end

theorem loadManualRoot_alike {stored₁ stored₂ : Option Task}
    (hAlike : Option.Rel (Task.Alike scope) stored₁ stored₂) (now : Tick) :
    (∃ e, loadManualRoot scope now stored₁ = .error e ∧
      loadManualRoot scope now stored₂ = .error e) ∨
      ∃ task₁ task₂, task₁.Alike scope task₂ ∧ loadManualRoot scope now stored₁ = .ok task₁ ∧
        loadManualRoot scope now stored₂ = .ok task₂ := by
  cases hAlike with
  | none => exact .inl ⟨_, rfl, rfl⟩
  | @some task₁ task₂ hTask =>
    unfold loadManualRoot
    simp only [hTask.root, ← hTask.rootVisible now]
    split
    · cases task₁.root.validateDispatch with
      | ok u => exact .inr ⟨task₁, task₂, hTask, rfl, rfl⟩
      | error message => exact .inl ⟨_, rfl, rfl⟩
    · exact .inl ⟨_, rfl, rfl⟩

/-- **Private columns stay private.** Two stores that differ only in the private
columns of relations that are not private to an actor give that actor the same
view of every task, with the same commands and entity tag, and the same pages
of its history. -/
theorem private_columns_hidden {w₁ w₂ : World} (hAlike : w₁.Alike scope w₂) (env : Env) (id : Str)
    (clock : Clock) :
    getDispatchLifecycle env scope clock (w₁.tasks id) =
        getDispatchLifecycle env scope clock (w₂.tasks id) ∧
      (getDispatchLifecycle env scope clock (w₁.tasks id)).map (·.etag env) =
        (getDispatchLifecycle env scope clock (w₂.tasks id)).map (·.etag env) ∧
      ∀ afterVersion limit, getDispatchEvents scope clock afterVersion limit (w₁.tasks id) =
        getDispatchEvents scope clock afterVersion limit (w₂.tasks id) := by
  have hView : getDispatchLifecycle env scope clock (w₁.tasks id) =
      getDispatchLifecycle env scope clock (w₂.tasks id) := by
    unfold getDispatchLifecycle loadLifecycleView
    rcases loadManualRoot_alike (hAlike.tasks id) (clock.reading 0) with
      ⟨e, hErr₁, hErr₂⟩ | ⟨task₁, task₂, hTask, hLoad₁, hLoad₂⟩
    · rw [hErr₁, hErr₂]
    · rw [hLoad₁, hLoad₂]
      show (do recheckScope scope _; pure _) = (do recheckScope scope _; pure _)
      rw [hTask.view]
  refine ⟨hView, by rw [hView], fun afterVersion limit => ?_⟩
  unfold getDispatchEvents
  rcases loadManualRoot_alike (hAlike.tasks id) (clock.reading 0) with
    ⟨e, hErr₁, hErr₂⟩ | ⟨task₁, task₂, hTask, hLoad₁, hLoad₂⟩
  · rw [hErr₁, hErr₂]
  · have hRows : visibleEvents scope (clock.reading 1) afterVersion task₁ =
        visibleEvents scope (clock.reading 1) afterVersion task₂ := by
      unfold visibleEvents
      rw [hTask.events]
      simp only [hTask.eventVisible]
    rw [hLoad₁, hLoad₂]
    show (if _ then _ else (do recheckScope scope _; eventsPage _ _)) =
      if _ then _ else (do recheckScope scope _; eventsPage _ _)
    rw [hRows]

namespace Sample

/-- The head as the initiator of the task, without the authority that the
directory gives. -/
def initiator : Scope := scopeOf head none

/-- Somebody else has handed in something else, and it was reviewed. -/
def otherwise (r : Relation) : Relation :=
  { r with
    assigneeDirectoryUserId := some ['z']
    assigneeAiUserId := some ['z']
    submittedResult := some ['s']
    reviewedByAiUserId := some ['y']
    reviewReason := some ['n'] }

/-- The row of a task and the other row are alike for the initiator. -/
abbrev OtherwiseAlike (r : Relation) : Prop :=
  Hidden initiator r ∧ Hidden initiator (otherwise r) ∧ r.published = (otherwise r).published

theorem otherwise_alike {w : World} {id : Str} {task : Task} (hTask : w.tasks id = some task)
    (hAlike : ∀ r ∈ task.relations, OtherwiseAlike r) :
    w.Alike initiator
      (w.put id { task with relations := task.relations.map otherwise }) where
  tasks := by
    intro other
    by_cases hId : other = id
    · rw [hId, World.put_tasks_self, hTask]
      refine .some ⟨?_, rfl⟩
      rw [forall₂_map_right_iff, forall₂_same]
      exact fun r hr => .inr (hAlike r hr)
    · rw [World.put_tasks_of_ne _ _ hId]
      cases w.tasks other with
      | none => exact .none
      | some t => exact .some ⟨forall₂_same.mpr fun r _ => .inl rfl, rfl⟩
  rest := rfl

end Sample

open Sample

/-- The initiator of the sample task sees the same, whoever has handed in
whatever. -/
theorem private_columns_hidden_sample :
    ∃ w ∈ history inReview, ∃ task, w.tasks ['t'] = some task ∧
      task.relations.map otherwise ≠ task.relations ∧
      ∃ view, getDispatchLifecycle plainEnv initiator clock (w.tasks ['t']) = .ok view ∧
        getDispatchLifecycle plainEnv initiator clock
          (some { task with relations := task.relations.map otherwise }) = .ok view := by
  obtain ⟨w, hw, task, hTask, hAlike, hOther, hOk⟩ := stored_mem inReview
    (P := fun task => (∀ r ∈ task.relations, OtherwiseAlike r) ∧
      task.relations.map otherwise ≠ task.relations ∧
      (getDispatchLifecycle plainEnv initiator clock (some task)).isOk)
    (by decide +kernel)
  have hSame := (private_columns_hidden (otherwise_alike hTask hAlike) plainEnv ['t'] clock).1
  rw [World.put_tasks_self] at hSame
  refine ⟨w, hw, task, hTask, hOther, ?_⟩
  rw [← hTask] at hOk
  cases hView : getDispatchLifecycle plainEnv initiator clock (w.tasks ['t']) with
  | ok view => exact ⟨view, rfl, hSame.symm.trans hView⟩
  | error e =>
    rw [hView] at hOk
    cases hOk

end EternalAI.Dispatch
