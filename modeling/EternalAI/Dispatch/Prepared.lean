import EternalAI.Dispatch.Invariant
import EternalAI.Dispatch.Service

/-!
# Dispatched tasks — what the service prepares

Rows are built by the service before the transaction that writes them. This
module says what can be relied on: the relations of a dispatch request fit its
mode, a reassignment gets relations that fit the mode of the task it was
prepared for, and a conversion gets a relation that stands for the legacy row.

* `preparedRelations_replaces` — the relations of a group of targets.
* `preparedRecords_structured` — the records of a dispatch request.
* `prepareReplacement_replaces`, `legacyConversion_copy` — the arguments of a
  lifecycle command.
-/

namespace EternalAI.Dispatch

open Lib List

variable {env : Env} {subject : Subject} {request : DispatchRequest} {prep : Preparation}
  {mode : DispatchMode} {now : Time} {workObjectId : Str} {id : Nat → Uuid}
  {lead : DispatchTarget} {targets : List DispatchTarget}

/-! ## Relations of a group of targets -/

def DispatchTarget.part (mode : DispatchMode) (lead t : DispatchTarget) :
    Role × (TargetKind × Str × Option Str) := (roleOf mode lead t, t.columns)

theorem preparedRelations_parts :
    (preparedRelations subject mode now workObjectId id lead targets).map Relation.part =
      targets.map (DispatchTarget.part mode lead) := by
  unfold preparedRelations
  rw [map_map]
  have hFst : targets = targets.zipIdx.map Prod.fst := by simp
  conv_rhs => rw [hFst, map_map]
  rfl

/-- The targets of a task fit its mode: one alone, or several with a lead. -/
def TargetsFit (mode : DispatchMode) (lead : DispatchTarget) (targets : List DispatchTarget) :
    Prop :=
  match mode with
  | .independent => targets = [lead]
  | .collaborative => lead ∈ targets ∧ targets.Nodup

theorem TargetsFit.fits (hFit : TargetsFit mode lead targets) :
    Fits mode (targets.map (DispatchTarget.part mode lead)) := by
  cases mode with
  | independent =>
    obtain rfl : targets = [lead] := hFit
    exact ⟨lead.columns, rfl⟩
  | collaborative =>
    obtain ⟨hMem, hNodup⟩ := hFit
    refine ⟨?_, ?_, ?_⟩
    · -- Without repetition the lead occurs once.
      have hRole : ∀ t : DispatchTarget,
          (DispatchTarget.part .collaborative lead t).1 = .lead ↔ t = lead := by
        intro t
        unfold DispatchTarget.part roleOf
        by_cases hEq : t = lead <;> simp [hEq]
      rw [filter_map, length_map]
      have hFilter : targets.filter ((fun p => decide (p.1 = Role.lead)) ∘
          DispatchTarget.part .collaborative lead) = targets.filter (· = lead) :=
        filter_congr fun t _ => by simp [hRole]
      rw [hFilter, ← countP_eq_length_filter]
      have hCount := count_eq_one_of_mem hNodup hMem
      rw [← hCount, List.count]
      exact countP_congr fun t _ => by simp
    · intro p hp
      obtain ⟨t, -, rfl⟩ := mem_map.mp hp
      unfold DispatchTarget.part roleOf
      simp only
      split <;> simp
    · rw [map_map]
      exact hNodup.map DispatchTarget.columns_injective

theorem lengthWithin_ident (i : Ident) : lengthWithin 1 128 i.val = true := by
  simpa [lengthWithin] using i.bounded

theorem preparedRelation_valid (t : DispatchTarget) (i : Uuid) :
    (preparedRelation subject mode now workObjectId lead t i).Valid := by
  cases t with
  | user u d =>
    exact ⟨lengthWithin_ident d, ⟨u.val, rfl, lengthWithin_ident u⟩, Int.le_refl _,
      fun _ h => (nomatch h), rfl, .inl ⟨rfl, rfl⟩, ⟨rfl, rfl, rfl⟩, .inl ⟨rfl, rfl, rfl, rfl⟩⟩
  | department d =>
    exact ⟨lengthWithin_ident d, rfl, Int.le_refl _, fun _ h => (nomatch h), ⟨rfl, rfl⟩,
      .inl ⟨rfl, rfl⟩, ⟨rfl, rfl, rfl⟩, .inl ⟨rfl, rfl, rfl, rfl⟩⟩

variable {r : Relation}

theorem mem_preparedRelations
    (hr : r ∈ preparedRelations subject mode now workObjectId id lead targets) :
    ∃ t i, r = preparedRelation subject mode now workObjectId lead t i := by
  obtain ⟨t, -, rfl⟩ := mem_map.mp hr
  exact ⟨t.1, id t.2, rfl⟩

/-- **The relations of a group of targets may make up a task.** -/
theorem preparedRelations_replaces (subject : Subject) (now : Time) (workObjectId : Str)
    (id : Nat → Uuid) (hFit : TargetsFit mode lead targets) :
    Replaces mode (preparedRelations subject mode now workObjectId id lead targets) where
  fits := by
    rw [preparedRelations_parts]
    exact hFit.fits
  fresh := by
    intro r hr
    obtain ⟨t, i, rfl⟩ := mem_preparedRelations hr
    cases t <;> exact ⟨rfl, rfl⟩
  checked := by
    intro r hr
    obtain ⟨t, i, rfl⟩ := mem_preparedRelations hr
    exact Relation.check_iff.mpr (preparedRelation_valid t i)

/-! ## Dispatch requests -/

theorem groups_fit {g : DispatchTarget × List DispatchTarget} (hg : g ∈ request.groups) :
    TargetsFit request.dispatchMode g.1 g.2 := by
  have hLead := request.leadFits
  unfold DispatchRequest.groups at hg
  cases hMode : request.dispatchMode with
  | independent =>
    rw [hMode] at hg
    obtain ⟨t, -, rfl⟩ := mem_map.mp hg
    rfl
  | collaborative =>
    rw [hMode] at hg hLead
    obtain ⟨t, ht, hMem⟩ := hLead
    rw [ht] at hg
    obtain rfl := mem_singleton.mp hg
    exact ⟨hMem, request.targetsNodup⟩

/-- The relation that decides on a prepared task is that of its lead. -/
theorem principalRelation_prepared (hFit : TargetsFit mode lead targets)
    (hr : r ∈ preparedRelations subject mode now workObjectId id lead targets)
    (hRole : r.role ≠ .collaborator) : r.target = lead.columns := by
  obtain ⟨t, ht, rfl⟩ := mem_map.mp hr
  have hMem : t.1 ∈ targets := (mem_zipIdx' ht).2 ▸ getElem_mem _
  suffices hEq : t.1 = lead by
    rw [← hEq]
    rfl
  cases mode with
  | independent =>
    obtain rfl : targets = [lead] := hFit
    exact mem_singleton.mp hMem
  | collaborative =>
    by_contra hne
    refine hRole ?_
    show roleOf .collaborative lead t.1 = _
    simp [roleOf, hne]

variable {record : Root × List Relation}

theorem mem_preparedRecords (hMem : record ∈ preparedRecords subject request prep) :
    ∃ lead targets workObjectId id, TargetsFit request.dispatchMode lead targets ∧
      record = (preparedRoot subject request prep workObjectId lead,
        preparedRelations subject request.dispatchMode prep.now workObjectId id lead targets) := by
  obtain ⟨g, hg, rfl⟩ := mem_map.mp hMem
  have hGroup : g.1 ∈ request.groups := (mem_zipIdx' hg).2 ▸ getElem_mem _
  exact ⟨g.1.1, g.1.2, prep.workObjectId g.2, prep.relationId g.2, groups_fit hGroup, rfl⟩

/-- A row is built from a request that has passed its validators, so that it passes its
own, unless the tenant has no name. -/
theorem preparedRoot_reloads {workObjectId : Str} {lead : DispatchTarget} :
    (preparedRoot subject request prep workObjectId lead).Reloads ↔ subject.tenantId ≠ [] := by
  have hText {lo hi : Nat} (text : RequestText lo hi) : ensureText lo hi text.val = .ok () :=
    ensure_ok.mpr ⟨by simp [textNormalised, text.stripped], by simp [lengthWithin, text.bounded]⟩
  have hOwner : lead.departmentId ≠ [] := by
    cases lead with
    | user _ d | department d => exact List.ne_nil_of_length_pos d.bounded.1
  have hStatus : initialStatus lead.kind ≠ .completed ∧ initialStatus lead.kind ≠ .withdrawn := by
    cases lead.kind <;> decide
  simp [Root.Reloads, Root.validateDispatch, Root.validateCurrent, Root.validateCompletion,
    preparedRoot, bind_ok, ensure_ok, hText, subject.identified, hOwner, hStatus,
    ← request.remindersCanonical, request.remindersDue]

theorem validateRecords_ok {records : List (Root × List Relation)} :
    validateRecords records = .ok () ↔ ∀ record ∈ records, record.1.Reloads := by
  induction records with
  | nil => simp [validateRecords]
  | cons record rest ih =>
    unfold validateRecords
    rw [forall_mem_cons, ← ih]
    cases hValid : record.1.validateDispatch with
    | ok _ => simp [Root.Reloads, hValid]
    | error message => simp [Root.Reloads, hValid]

theorem validateRecords_prepared (subject : Subject) (request : DispatchRequest)
    (prep : Preparation) :
    validateRecords (preparedRecords subject request prep) = .ok () ↔ subject.tenantId ≠ [] := by
  rw [validateRecords_ok]
  constructor
  · intro hAll
    -- a request has a target, so that there is a row
    have hSome : preparedRecords subject request prep ≠ [] := by
      have hLead := request.leadFits
      unfold preparedRecords DispatchRequest.groups
      cases hMode : request.dispatchMode with
      | independent => simpa using request.targetsNonempty
      | collaborative =>
        rw [hMode] at hLead
        obtain ⟨t, ht, -⟩ := hLead
        rw [Option.mem_def.mp ht]
        exact cons_ne_nil _ _
    obtain ⟨record, hMem⟩ := exists_mem_of_ne_nil _ hSome
    have hReloads := hAll record hMem
    obtain ⟨lead, _, workObjectId, _, -, rfl⟩ := mem_preparedRecords hMem
    exact preparedRoot_reloads.mp hReloads
  · intro hTenant record hMem
    obtain ⟨lead, _, workObjectId, _, -, rfl⟩ := mem_preparedRecords hMem
    exact preparedRoot_reloads.mpr hTenant

variable {key : Uuid}

/-- **When a dispatch is prepared**: the targets are accepted, the tenant has a name, and
the directory is still fresh in the end. -/
theorem prepareDispatch_iff : (∃ p, prepareDispatch env subject request key prep = .ok p) ↔
    validateTargets subject request.targets prep.fresh prep.leaders = .ok () ∧
      subject.tenantId ≠ [] ∧ prep.fresh.recheck prep.recheckedAt = .ok () := by
  unfold prepareDispatch
  rw [← validateRecords_prepared subject request prep]
  simp only [bind_ok]
  constructor
  · rintro ⟨p, ⟨⟩, hTargets, ⟨⟩, hValid, ⟨⟩, hFresh, -⟩
    exact ⟨hTargets, hValid, hFresh⟩
  · rintro ⟨hTargets, hValid, hFresh⟩
    exact ⟨_, (), hTargets, (), hValid, (), hFresh, rfl⟩

theorem prepareDispatch_ok {p : PreparedDispatch}
    (hOk : prepareDispatch env subject request key prep = .ok p) :
    p.records = preparedRecords subject request prep ∧ ∀ record ∈ p.records, record.1.Reloads := by
  unfold prepareDispatch at hOk
  simp only [bind_ok] at hOk
  obtain ⟨-, -, ⟨⟩, hVal, -, -, hOk⟩ := hOk
  cases hOk
  exact ⟨rfl, validateRecords_ok.mp hVal⟩

/-- **Every record of a dispatch request has the structure of a task.** -/
theorem preparedRecords_structured (hMem : record ∈ preparedRecords subject request prep)
    (hKeyed : Keyed record.2) : Structured record.1 record.2 := by
  obtain ⟨lead, targets, workObjectId, id, hFit, rfl⟩ := mem_preparedRecords hMem
  have hNew := preparedRelations_replaces subject prep.now workObjectId id hFit
  have hCur := hNew.current_eq
  have hStatus : (preparedRoot subject request prep workObjectId lead).status = .assigned ∨
      (preparedRoot subject request prep workObjectId lead).status = .departmentPending := by
    cases lead
    · exact .inl rfl
    · exact .inr rfl
  refine ⟨hKeyed, ⟨request.dispatchMode, rfl, ?_⟩, ?_, ?_, ?_⟩
  · unfold parts
    rw [hCur]
    exact hNew.fits
  · rcases hStatus with h | h <;> simp [h]
  · intro _ r hr _
    rw [hCur] at hr
    have hNot := not_review_of_handedIn (hNew.fresh r hr).2
    rcases hStatus with h | h <;> simp [h, hNot]
  · intro r hr hRole
    rw [hCur] at hr
    exact principalRelation_prepared hFit hr hRole

/-! ## Arguments of lifecycle commands -/

theorem validate_ok {raw : RawRequest} (hOk : raw.validate = .ok request) :
    request.dispatchMode = raw.dispatchMode ∧
      request.targets = DispatchTarget.canonical raw.targets := by
  unfold RawRequest.validate at hOk
  repeat' split at hOk
  all_goals cases hOk
  exact ⟨rfl, rfl⟩

theorem length_canonical (hOne : targets.length = 1) :
    (DispatchTarget.canonical targets).length = 1 := by
  obtain ⟨t, rfl⟩ := length_eq_one_iff.mp hOne
  rfl

theorem preparedRecords_single (subject : Subject) (request : DispatchRequest)
    (prep : Preparation)
    (hOne : request.dispatchMode = .independent → request.targets.length = 1) :
    ∃ record, preparedRecords subject request prep = [record] := by
  have hLead := request.leadFits
  have hGroups : ∃ g, request.groups = [g] := by
    unfold DispatchRequest.groups
    cases hMode : request.dispatchMode with
    | independent =>
      obtain ⟨t, ht⟩ := length_eq_one_iff.mp (hOne hMode)
      exact ⟨(t, [t]), by rw [ht]; rfl⟩
    | collaborative =>
      rw [hMode] at hLead
      obtain ⟨t, ht, -⟩ := hLead
      rw [ht]
      exact ⟨_, rfl⟩
  obtain ⟨g, hg⟩ := hGroups
  unfold preparedRecords
  rw [hg]
  exact ⟨_, rfl⟩

variable {rs : List Relation}

theorem Replaces.moved (hNew : Replaces mode rs) (workObjectId : Str) :
    Replaces mode (rs.map fun r => { r with workObjectId := workObjectId }) where
  fits := by
    rw [map_map]
    exact hNew.fits
  fresh := by
    intro r hr
    obtain ⟨x, hx, rfl⟩ := mem_map.mp hr
    exact hNew.fresh x hx
  checked := by
    intro r hr
    obtain ⟨x, hx, rfl⟩ := mem_map.mp hr
    exact hNew.checked x hx

variable {root : Root}

/-- **A reassignment gets relations that fit the task it was prepared for.** -/
theorem prepareReplacement_replaces {call : CommandCall} {q : Replacement}
    (hOk : prepareReplacement env call root = .ok q) (hRs : q.relations = some rs) :
    Replaces (root.dispatchMode.getD .independent) rs := by
  unfold prepareReplacement at hOk
  split at hOk
  · rename_i targets lead hCmd
    split at hOk
    · cases hOk
    · rename_i hOne
      split at hOk
      · cases hOk
      · rename_i request hVal
        split at hOk
        · rename_i p hPrep
          cases hOk
          obtain ⟨hMode, hTargets⟩ := validate_ok hVal
          obtain ⟨hRecords, -⟩ := prepareDispatch_ok hPrep
          have hMode' : request.dispatchMode = root.dispatchMode.getD .independent := hMode
          obtain ⟨record, hRecord⟩ := preparedRecords_single call.subject request
            call.reassignment fun hInd => by
              rw [hTargets]
              refine length_canonical (not_not.mp fun hLen => hOne ⟨?_, hLen⟩)
              rw [← hMode', hInd]
          obtain ⟨lead', targets', id', f', hFit, hEq⟩ := mem_preparedRecords
            (hRecord ▸ mem_singleton_self record)
          cases hRs
          rw [hRecords, hRecord, hEq, ← hMode']
          simp only [flatMap_cons, flatMap_nil, append_nil]
          exact (preparedRelations_replaces _ _ _ _ hFit).moved _
        · cases hOk
  · cases hOk
    cases hRs

section

variable {scope : Scope} {fresh : FreshDirectory}

theorem prepareLegacyRelation_ok (hOk : prepareLegacyRelation env root scope fresh = .ok r) :
    ∃ assignee, legacyConversionAssignee root scope fresh = .ok assignee ∧
      r = root.legacyRecord env scope.tenantId assignee (root.conversionStatus assignee) := by
  unfold prepareLegacyRelation at hOk
  split at hOk
  · split at hOk
    · exact ⟨_, ‹_›, (Except.ok.inj hOk).symm⟩
    · cases hOk
  · cases hOk

/-- **A conversion gets a relation that stands for the legacy row.** -/
theorem legacyConversion_copy (hOk : legacyConversion env root scope fresh = .ok (some r)) :
    ∃ assignee,
      r = root.legacyRecord env scope.tenantId assignee (root.conversionStatus assignee) := by
  unfold legacyConversion at hOk
  split at hOk
  · obtain ⟨x, hPrep, hSome⟩ := map_ok.mp hOk
    cases hSome
    obtain ⟨assignee, -, hEq⟩ := prepareLegacyRelation_ok hPrep
    exact ⟨assignee, hEq⟩
  · cases hOk

end

end EternalAI.Dispatch
