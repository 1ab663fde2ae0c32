import EternalAI.Dispatch.Moves

/-!
# Dispatched tasks — the structure of a task

What the rows of a task of the current model have to do with each other, and
that every lifecycle command keeps it so.

`Fits mode parts` describes a set of relations by roles and targets: one
`single` relation for an independent task, one lead and otherwise
collaborators with pairwise distinct targets for a collaborative one.
`Structured root table` adds what ties the row of the task to its relations.

* `Structured.afterRelation` — after a command on a relation the status of the
  task is computed anew, and that is all it takes.
* `Submission.FitFor` — what the service has prepared fits the task.
* `handleRelation_structured`, `RootHandled.structured` — every command keeps the
  structure.
-/

namespace EternalAI.Dispatch

open Lib List

variable {sub : Submission} {loaded : Loaded} {outcome : Outcome} {files : List Attachment}
  {r x : Relation} {table relations : List Relation} {root root' : Root} {mode : DispatchMode}

/-! ## Roles and targets -/

def Relation.part (r : Relation) : Role × (TargetKind × Str × Option Str) := (r.role, r.target)

def parts (table : List Relation) : List (Role × (TargetKind × Str × Option Str)) :=
  (current table).map Relation.part

/-- The roles and targets that a mode calls for. -/
def Fits (mode : DispatchMode) (ps : List (Role × (TargetKind × Str × Option Str))) : Prop :=
  match mode with
  | .independent => ∃ target, ps = [(.single, target)]
  | .collaborative => (ps.filter (·.1 = .lead)).length = 1 ∧ (∀ p ∈ ps, p.1 ≠ .single) ∧
      (ps.map Prod.snd).Nodup

theorem Fits.perm {ps qs : List (Role × (TargetKind × Str × Option Str))} (hPerm : ps.Perm qs)
    (hFits : Fits mode ps) : Fits mode qs := by
  cases mode with
  | independent =>
    obtain ⟨target, rfl⟩ := hFits
    exact ⟨target, (perm_singleton.mp hPerm.symm)⟩
  | collaborative =>
    obtain ⟨hLead, hSingle, hNodup⟩ := hFits
    refine ⟨?_, fun p hp => hSingle p (hPerm.mem_iff.mpr hp), (hPerm.map _).nodup_iff.mp hNodup⟩
    rw [← (hPerm.filter _).length_eq]
    exact hLead

def Root.target (root : Root) : TargetKind × Str × Option Str :=
  (root.targetKind, root.ownerDepartmentId, root.assigneeDirectoryUserId)

/-- **The structure of a task of the current model.** -/
structure Structured (root : Root) (table : List Relation) : Prop where
  keyed : Keyed table
  mode : ∃ mode, root.dispatchMode = some mode ∧ Fits mode (parts table)
  submitted : root.status = .awaitingAcceptance ∨ root.status = .completed →
    ∀ r ∈ current table, r.status = .submitted
  reviewing : root.status ≠ .withdrawn → ∀ r ∈ current table, r.role ≠ .collaborator →
    (root.status = .awaitingDepartmentReview ↔ r.status = .awaitingDepartmentReview)
  target : ∀ r ∈ current table, r.role ≠ .collaborator → r.target = root.target

theorem Fits.current_single (hFits : Fits .independent (parts table)) :
    ∃ r, current table = [r] ∧ r.role = .single := by
  obtain ⟨target, hParts⟩ := hFits
  obtain ⟨r, hCur, hPart⟩ := map_eq_singleton_iff.mp hParts
  exact ⟨r, hCur, congrArg Prod.fst hPart⟩

theorem Fits.current_lead (hFits : Fits .collaborative (parts table)) :
    ∃ r, (current table).filter (·.role = .lead) = [r] := by
  obtain ⟨hLead, -, -⟩ := hFits
  unfold parts at hLead
  rw [filter_map, length_map] at hLead
  exact length_eq_one_iff.mp hLead

/-- The current relation that is not a collaborator's is the only one of its
kind. -/
theorem Fits.unique (hFits : Fits mode (parts table)) (hr : r ∈ current table)
    (hx : x ∈ current table) (hRole : r.role ≠ .collaborator) (hRole' : x.role ≠ .collaborator) :
    r = x := by
  cases mode with
  | independent =>
    obtain ⟨y, hCur, -⟩ := hFits.current_single
    rw [hCur] at hr hx
    rw [mem_singleton.mp hr, mem_singleton.mp hx]
  | collaborative =>
    obtain ⟨y, hCur⟩ := hFits.current_lead
    have hLead : ∀ z ∈ current table, z.role ≠ .collaborator → z = y := by
      intro z hz hz'
      have hNot : z.role ≠ .single := hFits.2.1 z.part (mem_map_of_mem hz)
      have hIs : z.role = .lead := by
        cases hEq : z.role with
        | single => exact absurd hEq hNot
        | lead => rfl
        | collaborator => exact absurd hEq hz'
      have hMem : z ∈ (current table).filter (·.role = .lead) :=
        mem_filter.mpr ⟨hz, by simpa using hIs⟩
      rw [hCur] at hMem
      exact mem_singleton.mp hMem
    rw [hLead r hr hRole, hLead x hx hRole']

/-! ## Replacing a relation among copies -/

variable {l : List Relation}

theorem perm_replace (hKeyed : Keyed l) (hx : x ∈ l) (new : Relation) :
    (l.map fun y => if y.relationId = x.relationId then new else y).Perm
      ((l.filter fun y => decide (y.relationId ∉ [x.relationId])) ++ [new]) := by
  induction l with
  | nil => cases hx
  | cons y ys ih =>
    obtain ⟨hNew, hRest⟩ := nodup_cons.mp hKeyed
    rw [map_cons, filter_cons]
    by_cases hId : y.relationId = x.relationId
    · -- ids are distinct, so nothing is replaced or removed in the rest
      have hOthers : ∀ z ∈ ys, z.relationId ≠ x.relationId := by
        intro z hz hEq
        exact hNew (hId ▸ hEq ▸ mem_map_of_mem hz)
      have hMap : (ys.map fun z => if z.relationId = x.relationId then new else z) = ys :=
        (map_congr_left fun z hz => if_neg (hOthers z hz)).trans (map_id' ys)
      rw [if_pos hId, if_neg (by simp [hId]), hMap,
        filter_eq_self.mpr fun z hz => by simpa using hOthers z hz]
      exact (perm_append_singleton new ys).symm
    · have hx' : x ∈ ys := by
        rcases mem_cons.mp hx with rfl | hx'
        · exact absurd rfl hId
        · exact hx'
      rw [if_neg hId, if_pos (by simpa using hId), cons_append]
      exact (ih hRest hx').cons y

theorem Copies.replace (hCopies : Copies relations table) (new : Relation) :
    ((replaceRelation relations r new).map Relation.cleared).Perm
      (((current table).map fun y => if y.relationId = r.relationId then new else y).map
        Relation.cleared) := by
  have hMap := List.Perm.map (fun z : Relation =>
    if z.relationId = r.relationId then new.cleared else z) hCopies
  rw [map_map, map_map] at hMap
  unfold replaceRelation
  rw [map_map, map_map]
  have hFun : (Relation.cleared ∘ fun z => if z.relationId = r.relationId then new else z) =
      (fun z : Relation => if z.relationId = r.relationId then new.cleared else z) ∘
        Relation.cleared :=
    funext fun z => apply_ite Relation.cleared (z.relationId = r.relationId) new z
  rw [hFun]
  exact hMap

variable {new : Relation}

theorem Copies.assign (hCopies : Copies relations table) (hKeyed : Keyed table) (hr : r ∈ relations)
    (now : Time) (hNew : new.supersededAt = none) :
    Copies (replaceRelation relations r new) (supersededIn [r.relationId] now table ++ [new]) := by
  obtain ⟨x, hx, hCore⟩ := hCopies.row hr
  unfold Copies
  rw [current_append, current_supersededIn]
  refine (hCopies.replace new).trans (List.Perm.map _ ?_)
  have hOne : current [new] = [new] := by simp [current, hNew]
  rw [hOne, hCore.relationId]
  exact perm_replace hKeyed.current hx new

/-- What an update leaves alone. -/
structure SameKey (a b : Relation) : Prop where
  relationId : a.relationId = b.relationId
  tenantId : a.tenantId = b.tenantId
  workObjectId : a.workObjectId = b.workObjectId
  createdAt : a.createdAt = b.createdAt
  part : a.part = b.part
  supersededAt : a.supersededAt = b.supersededAt

variable {c : Relation}

theorem SameKey.overwrite (hKey : SameKey c r) (hCore : SameCore r x) : x.overwrite c = c := by
  have hId : x.relationId = c.relationId := (hKey.relationId.trans hCore.relationId).symm
  have hTenant : x.tenantId = c.tenantId :=
    (hKey.tenantId.trans (hCore.congr (·.tenantId) fun _ => rfl)).symm
  have hWork : x.workObjectId = c.workObjectId :=
    (hKey.workObjectId.trans (hCore.congr (·.workObjectId) fun _ => rfl)).symm
  have hTime : x.createdAt = c.createdAt :=
    (hKey.createdAt.trans (hCore.congr (·.createdAt) fun _ => rfl)).symm
  unfold Relation.overwrite
  rw [hId, hTenant, hWork, hTime]

theorem SameKey.updateRelations (hKey : SameKey c r) (hCopies : Copies relations table)
    (hKeyed : Keyed table) (hr : r ∈ relations) :
    current (updated c table) =
      (current table).map fun y => if y.relationId = r.relationId then c else y := by
  have hNone : c.supersededAt = none := by
    obtain ⟨x, hx, hCore⟩ := hCopies.row hr
    rw [hKey.supersededAt, hCore.supersededAt]
    exact (mem_current.mp hx).2
  have hRow : ∀ y ∈ table, y.relationId = c.relationId → SameCore r y :=
    fun y hy hId => hCopies.core_of_id hKeyed hr hy (hId.trans hKey.relationId)
  rw [current_updated (fun y hy hId => ?_) hNone]
  · refine map_congr_left fun y hy => ?_
    rw [hKey.relationId]
    by_cases hId : y.relationId = r.relationId
    · rw [if_pos hId, if_pos hId]
      exact hKey.overwrite (hRow y (mem_current.mp hy).1 (hId.trans hKey.relationId.symm))
    · rw [if_neg hId, if_neg hId]
  · rw [← (hRow y hy hId).supersededAt, ← hKey.supersededAt, hNone]

theorem Copies.update (hCopies : Copies relations table) (hKeyed : Keyed table) (hr : r ∈ relations)
    (hKey : SameKey c r) : Copies (replaceRelation relations r c) (updated c table) := by
  unfold Copies
  rw [hKey.updateRelations hCopies hKeyed hr]
  exact hCopies.replace c

theorem map_part_replace (hPart : ∀ y ∈ l, y.relationId = r.relationId → new.part = y.part) :
    (l.map fun y => if y.relationId = r.relationId then new else y).map Relation.part =
      l.map Relation.part := by
  rw [map_map]
  refine map_congr_left fun y hy => ?_
  show (if y.relationId = r.relationId then new else y).part = y.part
  split
  · exact hPart y hy ‹_›
  · rfl

theorem Copies.parts_perm (hCopies : Copies relations table) :
    (relations.map Relation.part).Perm (parts table) :=
  hCopies.map_core Relation.part fun _ => rfl

theorem Copies.replace_parts (hCopies : Copies relations table) (hKeyed : Keyed table)
    (hr : r ∈ relations) (hPart : new.part = r.part) :
    ((replaceRelation relations r new).map Relation.part).Perm (parts table) := by
  unfold replaceRelation
  rw [map_part_replace]
  · exact hCopies.parts_perm
  · intro y hy hId
    rw [hPart, (hCopies.keyed hKeyed).eq hy hr hId]

theorem parts_takenBack (now : Time) (table : List Relation) :
    parts (takenBack now table) = parts table := by
  unfold parts
  rw [current_takenBack, map_map]
  refine map_congr_left fun x _ => ?_
  show (if x.status.handedIn then x.invalidated now else x).part = x.part
  split <;> rfl

/-! ## Keeping the structure -/

variable {table' : List Relation}

/-- What does not depend on the status carries over to rows with the same
parts. -/
theorem Structured.keep (hStr : Structured root table) (hKeyed : Keyed table')
    (hParts : (parts table').Perm (parts table)) (hMode : root'.dispatchMode = root.dispatchMode)
    (hTarget : root'.target = root.target)
    (hSubmitted : root'.status = .awaitingAcceptance ∨ root'.status = .completed →
      ∀ r ∈ current table', r.status = .submitted)
    (hReviewing : root'.status ≠ .withdrawn → ∀ r ∈ current table', r.role ≠ .collaborator →
      (root'.status = .awaitingDepartmentReview ↔ r.status = .awaitingDepartmentReview)) :
    Structured root' table' where
  keyed := hKeyed
  mode := by
    obtain ⟨mode, hEq, hFits⟩ := hStr.mode
    exact ⟨mode, hMode.trans hEq, hFits.perm hParts.symm⟩
  submitted := hSubmitted
  reviewing := hReviewing
  target := by
    intro r hr hRole
    obtain ⟨x, hx, hPart⟩ := mem_map.mp (hParts.mem_iff.mp (mem_map_of_mem hr))
    have hRoles : x.role = r.role := congrArg Prod.fst hPart
    have hTargets : x.target = r.target := congrArg Prod.snd hPart
    rw [hTarget, ← hTargets]
    exact hStr.target x hx (hRoles ▸ hRole)

variable {status : LifecycleStatus}

theorem statusAfterRelation_ok (hFits : Fits mode (parts table))
    (hMode : root.dispatchMode = some mode) (hCopies : Copies relations table)
    (hStatus : statusAfterRelation root relations = .ok status) :
    ∃ x ∈ current table, x.role ≠ .collaborator ∧
      (mode = .independent ∧ current table = [x] ∧ status = independentStatus root x ∨
        mode = .collaborative ∧ status = collaborativeStatus x) := by
  unfold statusAfterRelation at hStatus
  cases mode with
  | independent =>
    -- the source takes the first relation, which is the only one
    rw [if_pos hMode] at hStatus
    cases hRel : relations with
    | nil =>
      rw [hRel] at hStatus
      cases hStatus
    | cons only rest =>
      rw [hRel] at hStatus
      obtain ⟨x, hCur, hRole⟩ := hFits.current_single
      obtain ⟨y, hy, hCore⟩ := hCopies.row (hRel ▸ mem_cons_self : only ∈ relations)
      obtain rfl : y = x := mem_singleton.mp (hCur ▸ hy)
      refine ⟨y, hy, by simp [hRole], .inl ⟨rfl, hCur, ?_⟩⟩
      rw [← Except.ok.inj hStatus]
      exact hCore.congr (independentStatus root) fun _ => rfl
  | collaborative =>
    rw [if_neg (by simp [hMode])] at hStatus
    cases hFind : relations.find? (·.role == .lead) with
    | none =>
      rw [hFind] at hStatus
      cases hStatus
    | some lead =>
      rw [hFind] at hStatus
      obtain ⟨y, hy, hCore⟩ := hCopies.row (mem_of_find?_eq_some hFind)
      have hRole : lead.role = .lead := by simpa using find?_some hFind
      refine ⟨y, hy, by simp [← hCore.role, hRole], .inr ⟨rfl, ?_⟩⟩
      rw [← Except.ok.inj hStatus]
      exact hCore.congr collaborativeStatus fun _ => rfl

theorem independentStatus_final :
    independentStatus root x = .awaitingAcceptance ∨ independentStatus root x = .completed →
      x.status = .submitted := by
  unfold independentStatus
  cases x.status <;> simp
  split <;> simp

theorem independentStatus_review :
    independentStatus root x = .awaitingDepartmentReview ↔
      x.status = .awaitingDepartmentReview := by
  unfold independentStatus finalSubmissionStatus
  cases x.status <;> simp
  · split <;> simp
  · split <;> simp

theorem collaborativeStatus_not_final :
    ¬ (collaborativeStatus x = .awaitingAcceptance ∨ collaborativeStatus x = .completed) := by
  unfold collaborativeStatus
  split <;> simp

theorem collaborativeStatus_review :
    collaborativeStatus x = .awaitingDepartmentReview ↔ x.status = .awaitingDepartmentReview := by
  unfold collaborativeStatus
  split <;> simp_all

/-- **A command on a relation keeps the structure**, since the status of the
task is computed from the relations that are left. -/
theorem Structured.afterRelation {relations' : List Relation} (hStr : Structured root table)
    (hKeyed : Keyed table') (hParts : (parts table').Perm (parts table))
    (hCopies : Copies relations' table')
    (hStatus : statusAfterRelation root relations' = .ok status)
    (hMode : root'.dispatchMode = root.dispatchMode) (hTarget : root'.target = root.target)
    (hRoot : root'.status = status) : Structured root' table' := by
  obtain ⟨mode, hEq, hFits⟩ := hStr.mode
  have hFits' : Fits mode (parts table') := hFits.perm hParts.symm
  obtain ⟨x, hx, hRole, hWhich⟩ := statusAfterRelation_ok hFits' hEq hCopies hStatus
  refine hStr.keep hKeyed hParts hMode hTarget ?_ ?_
  · intro hFinal r hr
    rw [hRoot] at hFinal
    rcases hWhich with ⟨-, hCur, rfl⟩ | ⟨-, rfl⟩
    · rw [hCur] at hr
      rw [mem_singleton.mp hr]
      exact independentStatus_final hFinal
    · exact absurd hFinal collaborativeStatus_not_final
  · -- whoever is no collaborator is the relation that the status was computed from
    intro _ r hr hRole'
    rw [hFits'.unique hr hx hRole' hRole, hRoot]
    rcases hWhich with ⟨-, -, rfl⟩ | ⟨-, rfl⟩
    · exact independentStatus_review
    · exact collaborativeStatus_review

/-! ## Commands on a relation -/

theorem changed_part : (sub.changed r).part = r.part := by
  unfold Submission.changed
  split <;> rfl

theorem changed_supersededAt : (sub.changed r).supersededAt = r.supersededAt := by
  unfold Submission.changed
  split <;> rfl

theorem changed_sameKey (hOp : sub.command.operation ≠ .assign) : SameKey (sub.changed r) r := by
  unfold Submission.changed
  split
  · rename_i hCmd
    rw [hCmd] at hOp
    exact absurd rfl hOp
  all_goals exact ⟨rfl, rfl, rfl, rfl, rfl, rfl⟩

/-- What carrying out a command needs to know about the relations it works on. -/
structure Loaded.Tracks (loaded : Loaded) : Prop where
  copies : Copies loaded.relations loaded.table
  structured : Structured loaded.root loaded.table

theorem changeRelation_ok (hTracks : loaded.Tracks) (hr : r ∈ loaded.relations)
    (hOk : (changeRelation sub r loaded.table).result = .ok table') :
    Keyed table' ∧ Copies (replaceRelation loaded.relations r (sub.changed r)) table' := by
  have hKeyed := hTracks.structured.keyed
  have hLive : r.supersededAt = none := by
    obtain ⟨x, hx, hCore⟩ := hTracks.copies.row hr
    rw [hCore.supersededAt]
    exact (mem_current.mp hx).2
  by_cases hOp : sub.command.operation = .assign
  · obtain ⟨id, user, hCmd⟩ := assign_of_operation hOp
    obtain ⟨-, hFree, rfl, -⟩ := changeRelation_assign hCmd hOk
    refine ⟨?_, hTracks.copies.assign hKeyed hr sub.now (changed_supersededAt.trans hLive)⟩
    -- The new id was free before, and superseding keeps the ids.
    have hNew : (sub.changed r).relationId = sub.newRelationId := by
      unfold Submission.changed
      rw [hCmd]
      rfl
    refine hKeyed.supersededIn.insert fun x hx => ?_
    obtain ⟨y, hy, rfl⟩ := mem_map.mp hx
    rw [hNew]
    split <;> exact hFree y hy
  · rw [changeRelation_update hOp, result_updateRelation] at hOk
    cases hOk
    exact ⟨hKeyed.updated, hTracks.copies.update hKeyed hr (changed_sameKey hOp)⟩

theorem reopen_tracks {changed : List Relation} {reopened : List Relation × List Relation}
    (hKeyed : Keyed table') (hCopies : Copies changed table')
    (hOk : (reopen sub loaded.root changed table').result = .ok reopened) :
    Keyed reopened.2 ∧ parts reopened.2 = parts table' ∧ Copies reopened.1 reopened.2 := by
  rcases reopen_ok hOk with ⟨rfl, -⟩ | ⟨-, tick, inv, hInv, rfl, -⟩
  · exact ⟨hKeyed, rfl, hCopies⟩
  · rw [result_invalidateSubmissions hCopies hKeyed] at hInv
    cases hInv
    exact ⟨hKeyed.takenBack, parts_takenBack _ _, copies_loadRelations _ _ _⟩

theorem acceptRoot_target : (sub.acceptRoot root).target = root.target := by
  unfold Submission.acceptRoot
  split
  · split <;> rfl
  · rfl

theorem acceptRoot_dispatchMode : (sub.acceptRoot root).dispatchMode = root.dispatchMode := by
  unfold Submission.acceptRoot
  split
  · split <;> rfl
  · rfl

theorem handleRelation_structured (hTracks : loaded.Tracks) (hr : r ∈ loaded.relations)
    (hOk : (handleRelation sub loaded r files).result = .ok outcome) :
    Structured (outcome.finalRoot sub loaded.root) outcome.table := by
  obtain ⟨table, reopened, status, files', hChange, hReopen, hStatus, rfl, -⟩ :=
    handleRelation_ok hOk
  obtain ⟨hKeyed, hCopies⟩ := changeRelation_ok hTracks hr hChange
  obtain ⟨hKeyed', hParts, hCopies'⟩ := reopen_tracks hKeyed hCopies hReopen
  refine hTracks.structured.afterRelation hKeyed' ?_ hCopies' hStatus acceptRoot_dispatchMode
    acceptRoot_target rfl
  rw [hParts]
  exact hCopies.parts_perm.symm.trans
    (hTracks.copies.replace_parts hTracks.structured.keyed hr changed_part)

/-! ## Commands on the task -/

/-- Relations that may take the place of all relations of a task. -/
structure Replaces (mode : DispatchMode) (rs : List Relation) : Prop where
  fits : Fits mode (rs.map Relation.part)
  fresh : ∀ r ∈ rs, r.supersededAt = none ∧ r.status.handedIn = false
  checked : ∀ r ∈ rs, r.check = true

variable {rs : List Relation}

theorem Replaces.current_eq (hNew : Replaces mode rs) : current rs = rs :=
  filter_eq_self.mpr fun r hr => by rw [(hNew.fresh r hr).1]; rfl

theorem Copies.supersede_all (hCopies : Copies relations table) (now : Time) :
    current (supersededIn (relations.map Relation.relationId) now table) = [] := by
  rw [current_supersededIn, filter_eq_nil_iff]
  intro x hx
  obtain ⟨r, hr, hCore⟩ := hCopies.copy hx
  have hMem : x.relationId ∈ relations.map Relation.relationId :=
    mem_map.mpr ⟨r, hr, hCore.relationId⟩
  simp [hMem]

theorem not_review_of_handedIn (hIn : r.status.handedIn = false) :
    r.status ≠ .awaitingDepartmentReview := by
  intro hEq
  rw [hEq] at hIn
  cases hIn

theorem taken_handedIn (now : Time) (x : Relation) : (x.taken now).status.handedIn = false := by
  unfold Relation.taken
  split
  · unfold Relation.invalidated
    split <;> rfl
  · rename_i hNot
    exact Bool.eq_false_iff.mpr hNot

theorem Structured.afterReturn (hStr : Structured root table) (now : Time)
    (hMode : root'.dispatchMode = root.dispatchMode) (hTarget : root'.target = root.target)
    (hOpen : root'.status = .assigned ∨ root'.status = .departmentPending ∨
      root'.status = .inProgress) : Structured root' (takenBack now table) := by
  refine hStr.keep hStr.keyed.takenBack (by rw [parts_takenBack]) hMode hTarget ?_ ?_
  · rcases hOpen with h | h | h <;> simp [h]
  · intro _ r hr _
    rw [current_takenBack] at hr
    obtain ⟨x, -, rfl⟩ := mem_map.mp hr
    -- no relation is in review any more, and neither is the task
    have hNot := not_review_of_handedIn (taken_handedIn now x)
    rcases hOpen with h | h | h <;> simp [h, hNot]

theorem Replaces.structured {lead : Relation} (hNew : Replaces mode rs) (hKeyed : Keyed table')
    (hCur : current table' = rs) (hLead : principalRelation rs = some lead)
    (hMode : root'.dispatchMode = some mode) (hTarget : root'.target = lead.target)
    (hStatus : root'.status = initialStatus lead.targetKind) : Structured root' table' := by
  have hFits : Fits mode (parts table') := by
    unfold parts
    rw [hCur]
    exact hNew.fits
  have hOpen : root'.status = .assigned ∨ root'.status = .departmentPending := by
    rw [hStatus]
    cases lead.targetKind
    · exact .inl rfl
    · exact .inr rfl
  have hLeadMem : lead ∈ current table' := hCur ▸ mem_of_find?_eq_some hLead
  have hLeadRole : lead.role ≠ .collaborator := by
    intro hEq
    have := find?_some hLead
    simp [hEq] at this
  refine ⟨hKeyed, ⟨mode, hMode, hFits⟩, ?_, ?_, ?_⟩
  · rcases hOpen with h | h <;> simp [h]
  · intro _ r hr _
    rw [hCur] at hr
    have hNot := not_review_of_handedIn (hNew.fresh r hr).2
    rcases hOpen with h | h <;> simp [h, hNot]
  · intro r hr hRole
    rw [hFits.unique hr hLeadMem hRole hLeadRole, hTarget]

theorem open_cases (hOpen : root.frozen = false) :
    root.status = .assigned ∨ root.status = .departmentPending ∨ root.status = .inProgress ∨
      root.status = .awaitingDepartmentReview ∨ root.status = .awaitingAcceptance := by
  unfold Root.frozen at hOpen
  cases hStatus : root.status <;> simp_all

variable {rows : List Row}

theorem RootHandled.structured (hTracks : loaded.Tracks)
    (hOffer : sub.command.operation ∈ offered sub loaded none)
    (hReplaces : ∀ rs, sub.replacementRelations = some rs →
      Replaces (loaded.root.dispatchMode.getD .independent) rs)
    (hHandled : RootHandled sub loaded files outcome rows) :
    Structured (outcome.finalRoot sub loaded.root) outcome.table := by
  have hStr := hTracks.structured
  obtain ⟨hOpen, hOffer⟩ := mem_offered_root hOffer
  cases hHandled with
  | summary _ hAll _ =>
    have hAll' : ∀ r ∈ current loaded.table, r.status = .submitted :=
      hTracks.copies.forall (fun a b hCore ha => hCore.status ▸ ha) hAll
    refine hStr.keep hStr.keyed .rfl rfl rfl (fun _ => hAll') fun _ r hr _ => ?_
    rw [hAll' r hr]
    show finalSubmissionStatus loaded.root = _ ↔ _
    unfold finalSubmissionStatus
    split <;> simp
  | confirmed hCmd =>
    -- A confirmation comes while the result awaits acceptance.
    have hAwait : loaded.root.status = .awaitingAcceptance := by
      simpa [hCmd, LifecycleCommand.operation] using hOffer
    have hAll := hStr.submitted (.inl hAwait)
    refine hStr.keep hStr.keyed .rfl rfl rfl (fun _ => hAll) fun _ r hr _ => ?_
    rw [hAll r hr]
    show LifecycleStatus.completed = _ ↔ _
    simp
  | returned _ hInv =>
    -- the copies that are written back are those of the table, so all of them are taken back
    rw [result_invalidateSubmissions hTracks.copies hStr.keyed] at hInv
    cases hInv
    exact hStr.afterReturn sub.now rfl rfl (.inr (.inr rfl))
  | revised _ hInv =>
    rw [result_invalidateSubmissions hTracks.copies hStr.keyed] at hInv
    cases hInv
    refine hStr.afterReturn sub.now rfl rfl ?_
    -- a task that was handed in is in progress again, any other stays where it was
    rcases open_cases hOpen with h | h | h | h | h <;>
      simp [Outcome.finalRoot, Loaded.outcome, h]
  | withdrawn =>
    -- Of a withdrawn task nothing is asked that its status could break.
    refine hStr.keep hStr.keyed .rfl rfl rfl ?_ ?_
    · rintro (h | h) <;> cases h
    · intro h
      exact absurd rfl h
  | extended => exact hStr.keep hStr.keyed .rfl rfl rfl hStr.submitted hStr.reviewing
  | @reassigned _ _ rs _ _ _ _ _ hRs hLead _ hIns =>
    obtain ⟨mode, hMode, -⟩ := hStr.mode
    have hNew := hReplaces rs hRs
    rw [hMode, Option.getD_some] at hNew
    obtain ⟨rfl, hKeyed⟩ := result_insertRelations hIns
    -- All old relations are superseded, so the new ones are the current ones.
    refine hNew.structured (hKeyed hStr.keyed.supersededIn) ?_ hLead hMode rfl rfl
    rw [current_append, hTracks.copies.supersede_all, hNew.current_eq, nil_append]

end EternalAI.Dispatch
