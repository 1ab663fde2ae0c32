import EternalAI.Recurrence.Occurrences

/-!
# Recurring series — versions, entity tags and replays

A series row holds the current rule, and the table of versions one snapshot for
every rule it ever had. Both are written by one commit; here they are shown to
stay aligned, and the table is shown to answer repeated requests.

* `Filed` — the versions of a series are 1..n and the last one is the current
  rule.
* `Commits.unique` — an entity tag is good for one change.
* `Commits.replayed`, `Creates.replayed_iff` — what a repeated request gets.
* `series_versions_aligned` — all of it, for whole histories.
-/

namespace EternalAI.Recurrence

open Lib Dispatch List

variable {env : SeriesEnv} {cal : Calendar} {s s' s₂ : State} {t t₂ h : List State} {id : Uuid}
  {row : SeriesRow} {request : SeriesRequest} {subject : Subject} {key : Uuid} {now : Time}
  {result : SeriesMutationResult} {change : Change} {ifMatch : String}

/-! ## Uploads stay -/

variable {tenantId owner : Str} {files files' found : List Attachment} {ids : List Uuid}

theorem findSources_mono (hUploads : filesAt none files <+: filesAt none files')
    (hOk : findSources tenantId owner files ids = .ok found) :
    findSources tenantId owner files' ids = .ok found := by
  -- a source belongs to no task yet, so it is looked for among the uploads
  have hStaged : ∀ all id, List.find? (isSource tenantId owner id) all =
      (filesAt none all).find? (isSource tenantId owner id) := by
    intro all id
    unfold filesAt
    rw [find?_filter]
    refine congrArg (List.find? · all) (funext fun a => ?_)
    cases hNone : a.workObjectId with
    | none => simp only [decide_true, true_and, Bool.decide_eq_true]
    | some task => simp [isSource, hNone]
  induction ids generalizing found with
  | nil => exact hOk
  | cons id ids ih =>
    unfold findSources at hOk ⊢
    rw [hStaged] at hOk ⊢
    cases hFind : (filesAt none files).find? (isSource tenantId owner id) with
    | none => simp [hFind] at hOk
    | some a =>
      cases hRest : findSources tenantId owner files ids with
      | error e => simp [hFind, hRest] at hOk
      | ok rest =>
        obtain ⟨more, hMore⟩ := hUploads
        rw [ih hRest, ← hMore, find?_append, hFind]
        simpa [hFind, hRest] using hOk

theorem templateAttachments_mono (hUploads : filesAt none files <+: filesAt none files')
    (hOk : templateAttachments tenantId owner ids files = .ok found) :
    templateAttachments tenantId owner ids files' = .ok found := by
  obtain ⟨⟨⟩, hCount, hOk⟩ := bind_ok.mp hOk
  obtain ⟨sources, hFound, hOk⟩ := bind_ok.mp hOk
  exact bind_ok.mpr ⟨(), hCount, bind_ok.mpr
    ⟨sources, findSources_mono hUploads hFound, hOk⟩⟩

variable {view : SeriesView}

theorem view_mono (hUploads : filesAt none s.tasks.files <+: filesAt none s'.tasks.files)
    (hOk : s.view cal row = .ok view) : s'.view cal row = .ok view := by
  obtain ⟨attachments, hFound, hOk⟩ := bind_ok.mp hOk
  exact bind_ok.mpr ⟨attachments, templateAttachments_mono hUploads hFound, hOk⟩

/-- Moving a series on does not change what its template refers to. -/
theorem view_advanced {due : Time} (hOk : s.view cal row = .ok view) :
    ∃ view', s.view cal (row.advanced due) = .ok view' := by
  obtain ⟨attachments, hFound, hOk⟩ := bind_ok.mp hOk
  refine ⟨_, bind_ok.mpr ⟨attachments, hFound, validate_ok.mpr ⟨rfl, ?_⟩⟩⟩
  exact ((validate_ok.mp hOk).2 :)

/-! ## The invariant -/

structure FiledFor (cal : Calendar) (row : SeriesRow) (v : VersionRow) : Prop where
  tenant : v.tenantId = row.tenantId
  actor : v.actorAiUserId = row.creatorAiUserId
  zone : (cal v.snapshot.request.timezone).isSome

/-- The versions of a series are 1..n, each under a key of its own, and the
last one is a snapshot of the row. -/
structure Filed (cal : Calendar) (s : State) (id : Uuid) : Prop where
  absent : s.series id = none → s.versionsOf id = []
  numbered : ∀ row, s.series id = some row →
    (s.versionsOf id).map (·.version) = List.range' 1 row.currentVersion
  latest : ∀ row, s.series id = some row → ∃ v, (s.versionsOf id).getLast? = some v ∧
    v.version = row.currentVersion ∧ v.snapshot.version = row.currentVersion ∧
    v.snapshot.seriesId = id ∧ v.snapshot.request = row.request
  filed : ∀ row, s.series id = some row → ∀ v ∈ s.versionsOf id, FiledFor cal row v
  keys : ((s.versionsOf id).map (·.idempotencyKey)).Nodup
  viewable : ∀ row, s.series id = some row → ∃ view, s.view cal row = .ok view

theorem filed_unused (hUnused : Unused s) : Filed cal s id where
  absent := fun _ => by simp [State.versionsOf, hUnused.2.1]
  numbered := fun row hRow => by simp [hUnused.1] at hRow
  latest := fun row hRow => by simp [hUnused.1] at hRow
  filed := fun row hRow => by simp [hUnused.1] at hRow
  keys := by simp [State.versionsOf, hUnused.2.1]
  viewable := fun row hRow => by simp [hUnused.1] at hRow

variable {operation : Operation} {fingerprint : String} {v : VersionRow}

theorem Filed.append (hKeyed : row.seriesId = id) (hOwner : row.tenantId = subject.tenantId ∧
      row.creatorAiUserId = subject.aiUserId)
    (hBefore : (s.versionsOf id).map (·.version) ++ [row.currentVersion] =
      List.range' 1 row.currentVersion) (hFiled : ∀ v ∈ s.versionsOf id, FiledFor cal row v)
    (hKeys : ((s.versionsOf id).map (·.idempotencyKey)).Nodup)
    (hNew : ∀ v ∈ s.versionsOf id, v.idempotencyKey ≠ key)
    (hUploads : filesAt none s.tasks.files <+: filesAt none s'.tasks.files)
    (hView : s.view cal row = .ok view) (hRow : s'.series id = some row)
    (hVersions : s'.versionsOf id =
      s.versionsOf id ++ [versionRow subject row operation key fingerprint now view]) :
    Filed cal s' id := by
  obtain ⟨hShows, hZone, -⟩ := view_ok hView
  refine ⟨fun hNone => ?_, forall_some hRow ?_, forall_some hRow ?_,
    forall_some hRow fun v hv => ?_, ?_, forall_some hRow ⟨view, view_mono hUploads hView⟩⟩
  · rw [hRow] at hNone
    cases hNone
  · rw [hVersions, map_append]
    exact hBefore
  · rw [hVersions]
    refine ⟨_, getLast?_concat, rfl, hShows.version, ?_, hShows.request⟩
    exact hShows.seriesId.trans hKeyed
  · rw [hVersions] at hv
    rcases mem_append.mp hv with hv | hv
    · exact hFiled v hv
    · rw [mem_singleton.mp hv]
      refine ⟨hOwner.1.symm, hOwner.2.symm, ?_⟩
      rw [versionRow, hShows.request]
      exact hZone
  · rw [hVersions, map_append, nodup_append]
    refine ⟨hKeys, by simp, fun other hOther new hThis => ?_⟩
    obtain ⟨v, hv, rfl⟩ := mem_map.mp hOther
    rw [mem_singleton.mp hThis]
    exact hNew v hv

theorem SeriesMove.filed (hMove : SeriesMove env cal s s' id) (hSound : SoundAt cal s id)
    (hFiled : Filed cal s id)
    (hUploads : filesAt none s.tasks.files <+: filesAt none s'.tasks.files) :
    Filed cal s' id := by
  cases hMove with
  | kept hSeries hVersions =>
    -- Only files may be new, and a view stays a view when files are added.
    refine ⟨?_, ?_, ?_, ?_, ?_, fun row hRow => ?_⟩
    · rw [hSeries, hVersions]
      exact hFiled.absent
    · rw [hSeries, hVersions]
      exact hFiled.numbered
    · rw [hSeries, hVersions]
      exact hFiled.latest
    · rw [hSeries, hVersions]
      exact hFiled.filed
    · rw [hVersions]
      exact hFiled.keys
    · obtain ⟨view, hView⟩ := hFiled.viewable row (hSeries ▸ hRow)
      exact ⟨view, view_mono hUploads hView⟩
  | created hNone _ hId hView hNew hVersions =>
    -- the first version is filed into an empty table
    have hEmpty := hFiled.absent hNone
    refine Filed.append hId ⟨rfl, rfl⟩ ?_ ?_ hFiled.keys ?_ hUploads hView hNew hVersions
    · rw [hEmpty]
      rfl
    · rw [hEmpty]
      exact fun v hv => nomatch hv
    · rw [hEmpty]
      exact fun v hv => nomatch hv
  | @changed subject row _ _ change key due at' hOwned _ hUnused _ hView hNew hVersions =>
    obtain ⟨hRow, hTenant, hActor⟩ := owned_ok.mp hOwned
    have hKeyed : (row.changed change due at').seriesId = id := hSound.keyed row hRow
    refine Filed.append hKeyed ⟨hTenant, hActor⟩ ?_ ?_ hFiled.keys ?_ hUploads hView hNew hVersions
    · rw [hFiled.numbered row hRow]
      show _ = List.range' 1 (row.currentVersion + 1)
      rw [List.range'_concat]
      simp [SeriesRow.changed, Nat.add_comm]
    · intro v hv
      obtain ⟨hTenant, hActor, hZone⟩ := hFiled.filed row hRow v hv
      exact ⟨hTenant, hActor, hZone⟩
    · -- The key was looked up before, and no version answered to it.
      intro v hv hKey
      obtain ⟨hOldTenant, hOldActor, -⟩ := hFiled.filed row hRow v hv
      obtain ⟨hMem, hSeries⟩ := mem_filter.mp hv
      exact versionOf_none hUnused (of_decide_eq_true hSeries) (hOldTenant.trans hTenant)
        (hOldActor.trans hActor) hKey hMem
  | advanced hRow _ _ _ hNew hVersions =>
    -- a worker moves the next due instant only, which is no part of the rule
    refine ⟨fun hNone => ?_, forall_some hNew ?_, forall_some hNew ?_,
      forall_some hNew fun v hv => ?_, ?_, forall_some hNew ?_⟩
    · rw [hNew] at hNone
      cases hNone
    · rw [hVersions]
      exact (hFiled.numbered _ hRow :)
    · rw [hVersions]
      exact (hFiled.latest _ hRow :)
    · obtain ⟨hTenant, hActor, hZone⟩ := hFiled.filed _ hRow v (hVersions ▸ hv)
      exact ⟨hTenant, hActor, hZone⟩
    · rw [hVersions]
      exact hFiled.keys
    · obtain ⟨view, hView⟩ := hFiled.viewable _ hRow
      exact view_advanced (view_mono hUploads hView)

def Aligned (cal : Calendar) (s : State) (id : Uuid) : Prop := SoundAt cal s id ∧ Filed cal s id

theorem aligned_run (hRun : Run Unused (SeriesStep env cal) h) :
    ∀ s ∈ h, ∀ id, Aligned cal s id := by
  refine hRun.mem_inv (fun _ hUnused _ => ⟨soundAt_unused hUnused, filed_unused hUnused⟩) ?_
  intro s t s' hAligned hStep id
  have hMove := hStep.move (keyed_of_sound fun other => (hAligned other).1) id
  exact ⟨hMove.sound (hAligned id).1, hMove.filed (hAligned id).1 (hAligned id).2 hStep.onward.2⟩

/-! ## What stays of a series -/

/-- A series stays with its owner, its versions are only added to, and so are
the uploads. -/
structure Grows (id : Uuid) (s s' : State) : Prop where
  uploads : filesAt none s.tasks.files <+: filesAt none s'.tasks.files
  versions : s.versionsOf id <+: s'.versionsOf id
  row : ∀ row, s.series id = some row → ∃ row', s'.series id = some row' ∧
    row'.tenantId = row.tenantId ∧ row'.creatorAiUserId = row.creatorAiUserId ∧
    row.currentVersion ≤ row'.currentVersion

theorem Grows.refl (s : State) : Grows id s s :=
  ⟨prefix_rfl, prefix_rfl, fun row hRow => ⟨row, hRow, rfl, rfl, le_refl _⟩⟩

theorem Grows.trans {a b c : State} (hab : Grows id a b) (hbc : Grows id b c) : Grows id a c := by
  refine ⟨hab.uploads.trans hbc.uploads, hab.versions.trans hbc.versions, fun row hRow => ?_⟩
  obtain ⟨row₁, hRow₁, hTenant₁, hActor₁, hLe₁⟩ := hab.row row hRow
  obtain ⟨row₂, hRow₂, hTenant₂, hActor₂, hLe₂⟩ := hbc.row row₁ hRow₁
  exact ⟨row₂, hRow₂, hTenant₂.trans hTenant₁, hActor₂.trans hActor₁, hLe₁.trans hLe₂⟩

theorem SeriesMove.grows (hMove : SeriesMove env cal s s' id)
    (hUploads : filesAt none s.tasks.files <+: filesAt none s'.tasks.files) : Grows id s s' := by
  refine ⟨hUploads, ?_, fun row hRow => ?_⟩
  · cases hMove with
    | kept _ hVersions | advanced _ _ _ _ _ hVersions => exact hVersions ▸ prefix_rfl
    | created _ _ _ _ _ hVersions | changed _ _ _ _ _ _ hVersions =>
      exact hVersions ▸ prefix_append ..
  · cases hMove with
    | kept hSeries => exact ⟨row, hSeries ▸ hRow, rfl, rfl, le_refl _⟩
    | created hNone =>
      rw [hNone] at hRow
      cases hRow
    | changed hOwned _ _ _ _ hNew =>
      obtain rfl := Option.some.inj ((owned_ok.mp hOwned).1.symm.trans hRow)
      exact ⟨_, hNew, rfl, rfl, Nat.le_succ _⟩
    | advanced hOld _ _ _ hNew =>
      obtain rfl := Option.some.inj (hOld.symm.trans hRow)
      exact ⟨_, hNew, rfl, rfl, le_refl _⟩

theorem grows_run (hRun : Run Unused (SeriesStep env cal) (s₂ :: t₂)) (hMem : s ∈ s₂ :: t₂)
    (id : Uuid) : Grows id s s₂ := by
  refine (hRun.mem_inv_rel (I := fun s => ∀ id, SoundAt cal s id)
    (fun _ hUnused _ => soundAt_unused hUnused) Grows.refl Grows.trans ?_ s hMem).2
  intro a t' b hPast hStep
  have hSound := (hPast a mem_cons_self).1
  refine ⟨sound_step hSound hStep, ?_⟩
  exact (hStep.move (keyed_of_sound hSound) id).grows hStep.onward.2

/-! ## One change for an entity tag -/

/-- A version that answers a request: it was filed by the same actor under the
same key for the same content. -/
structure Answers (subject : Subject) (key : Uuid) (operation : Operation)
    (fingerprint : String) (v : VersionRow) : Prop where
  tenant : v.tenantId = subject.tenantId
  actor : v.actorAiUserId = subject.aiUserId
  key : v.idempotencyKey = key
  operation : v.operation = operation
  fingerprint : v.requestFingerprint = fingerprint

theorem replay_replayed
    (hReplay : s.replay cal subject id operation key fingerprint = .ok (some result)) :
    result.replayed = true := by
  unfold State.replay at hReplay
  split at hReplay
  · cases hReplay
  · split at hReplay
    · obtain ⟨series, -, hReplay⟩ := bind_ok.mp hReplay
      rw [← Option.some.inj (Except.ok.inj hReplay)]
    · cases hReplay

def Commits (env : SeriesEnv) (cal : Calendar) (subject : Subject) (id : Uuid) (change : Change)
    (ifMatch : String) (key : Uuid) (s : State) (view : SeriesView) (s' : State) : Prop :=
  ∃ now, s.change env cal subject id change ifMatch key now = .ok (⟨view, false⟩, s')

theorem Commits.made (hKeyed : Keyed s)
    (hCommit : Commits env cal subject id change ifMatch key s view s') :
    ∃ row row' old v, s.series id = some row ∧ s'.owned subject id = .ok row' ∧ Shows row old ∧
      ifMatch = old.etag env ∧ row'.currentVersion = row.currentVersion + 1 ∧
      s'.versionsOf id = s.versionsOf id ++ [v] ∧
      Answers subject key change.operation (env.changeFingerprint id change) v ∧
      v.snapshot = view := by
  obtain ⟨now, hOk⟩ := hCommit
  rcases change_ok hOk with ⟨-, hReplay⟩ | ⟨row, old, due, hOwned, hOld, -, hTag, -, hNew⟩
  · exact absurd (replay_replayed hReplay) (by simp)
  · obtain ⟨made, -, hResult, -, rfl⟩ := commit_ok hNew
    obtain rfl : view = made := congrArg SeriesMutationResult.series hResult
    obtain ⟨hRow, hTenant, hActor⟩ := owned_ok.mp hOwned
    have hSeries : (row.changed change due now).seriesId = id := hKeyed id row hRow
    refine ⟨row, row.changed change due now, old, versionRow subject (row.changed change due now)
      change.operation key (env.changeFingerprint id change) now view, hRow, ?_, (view_ok hOld).1,
      hTag, rfl, committed_versionsOf_self hSeries, ⟨rfl, rfl, rfl, rfl, rfl⟩, rfl⟩
    refine owned_ok.mpr ⟨?_, hTenant, hActor⟩
    exact hSeries ▸ State.put_series_self s (row.changed change due now)

def TellsApart (env : SeriesEnv) (id : Uuid) (h : List State) : Prop :=
  ∀ s ∈ h, ∀ s' ∈ h, ∀ row ∈ s.series id, ∀ row' ∈ s'.series id,
    env.ruleDigest row.request row.seriesId row.currentVersion =
      env.ruleDigest row'.request row'.seriesId row'.currentVersion →
    row.currentVersion = row'.currentVersion

theorem Shows.etag (hShows : Shows row view) : view.etag env =
    "\"wosr-" ++ env.ruleDigest row.request row.seriesId row.currentVersion ++ "\"" := by
  unfold SeriesView.etag
  rw [hShows.request, hShows.seriesId, hShows.version]

variable {s₁ s₁' s₂' : State} {t₁ : List State} {subject₁ subject₂ : Subject}
  {change₁ change₂ : Change} {key₁ key₂ : Uuid} {view₁ view₂ : SeriesView}

section

variable (hDigest : TellsApart env id h)
  (hFirst : Commits env cal subject₁ id change₁ ifMatch key₁ s₁ view₁ s₁')
  (hSecond : Commits env cal subject₂ id change₂ ifMatch key₂ s₂ view₂ s₂')

include hDigest hFirst hSecond

theorem Commits.not_before (hRun : Run Unused (SeriesStep env cal) (s₂ :: t₂))
    (hSub : s₂ :: t₂ ⊆ h) (hMem₁ : s₁ ∈ s₂ :: t₂) : ¬ s₁' :: s₁ :: t₁ <:+ s₂ :: t₂ := by
  intro hSuf
  have hSound := sound_run hRun
  obtain ⟨old₁, new₁, view₁, -, hOld₁, hNew₁, hShows₁, hTag₁, hNext₁, -⟩ :=
    hFirst.made (keyed_of_sound (hSound s₁ hMem₁))
  obtain ⟨old₂, new₂, view₂, -, hOld₂, hNew₂, hShows₂, hTag₂, hNext₂, -⟩ :=
    hSecond.made (keyed_of_sound (hSound s₂ mem_cons_self))
  obtain ⟨later, hLater, -, -, hGrown⟩ :=
    (grows_run hRun (hSuf.subset mem_cons_self) id).row new₁ (owned_ok.mp hNew₁).1
  obtain rfl := Option.some.inj (hLater.symm.trans hOld₂)
  -- the first commit has raised the version, and both have found the version of the tag
  have hTags := hTag₁.symm.trans hTag₂
  rw [hShows₁.etag, hShows₂.etag] at hTags
  have hSame := hDigest s₁ (hSub hMem₁) s₂ (hSub mem_cons_self) old₁ hOld₁ later hLater
    (by simpa using hTags)
  omega

/-- **At most one change commits with an entity tag.** -/
theorem Commits.unique (hRun : Run Unused (SeriesStep env cal) h) (hSuf₁ : s₁' :: s₁ :: t₁ <:+ h)
    (hSuf₂ : s₂' :: s₂ :: t₂ <:+ h) :
    s₁' :: s₁ :: t₁ = s₂' :: s₂ :: t₂ ∧ key₁ = key₂ ∧ view₁ = view₂ := by
  have hBefore : ∀ {s s' : State} {t : List State}, s' :: s :: t <:+ h →
      Run Unused (SeriesStep env cal) (s :: t) := fun hSuf =>
    hRun.of_suffix ((suffix_cons _ _).trans hSuf)
  have hSame : s₁' :: s₁ :: t₁ = s₂' :: s₂ :: t₂ :=
    position_eq hSuf₁ hSuf₂
      (fun hSuf => hFirst.not_before hDigest hSecond (hBefore hSuf₂)
        ((suffix_cons _ _).trans hSuf₂).subset (hSuf.subset (mem_cons_of_mem _ mem_cons_self)) hSuf)
      fun hSuf => hSecond.not_before hDigest hFirst (hBefore hSuf₁)
        ((suffix_cons _ _).trans hSuf₁).subset (hSuf.subset (mem_cons_of_mem _ mem_cons_self)) hSuf
  refine ⟨hSame, ?_⟩
  obtain ⟨rfl, rfl, -⟩ : s₁' = s₂' ∧ s₁ = s₂ ∧ t₁ = t₂ := by simpa using hSame
  -- Both have filed the version that this one step has added.
  have hKeyed := keyed_of_sound (sound_run (hBefore hSuf₁) s₁ mem_cons_self)
  obtain ⟨-, -, -, v₁, -, -, -, -, -, hVersions₁, hAnswers₁, hView₁⟩ := hFirst.made hKeyed
  obtain ⟨-, -, -, v₂, -, -, -, -, -, hVersions₂, hAnswers₂, hView₂⟩ := hSecond.made hKeyed
  obtain rfl : v₁ = v₂ := by simpa using hVersions₁.symm.trans hVersions₂
  exact ⟨hAnswers₁.key.symm.trans hAnswers₂.key, hView₁.symm.trans hView₂⟩

end

/-! ## Replays -/

theorem Filed.versionOf (hFiled : Filed cal s id) (hMem : v ∈ s.versionsOf id)
    (hAnswers : Answers subject key operation fingerprint v) :
    s.versionOf subject id key = some v := by
  obtain ⟨hAll, hSeries⟩ := mem_filter.mp hMem
  have hThis : (v.tenantId == subject.tenantId && v.seriesId == id &&
      v.actorAiUserId == subject.aiUserId && v.idempotencyKey == key) = true := by
    simp [hAnswers.tenant, of_decide_eq_true hSeries, hAnswers.actor, hAnswers.key]
  cases hFind : s.versionOf subject id key with
  | none => exact absurd hThis (find?_eq_none.mp hFind v hAll)
  | some w =>
    -- keys are not used twice, so what is found is `v`
    have hFound := find?_some hFind
    simp only [Bool.and_eq_true, beq_iff_eq] at hFound
    have hOther : w ∈ s.versionsOf id :=
      mem_filter.mpr ⟨mem_of_find?_eq_some hFind, by simpa using hFound.1.1.2⟩
    rw [inj_on_of_nodup_map hFiled.keys hOther hMem (hFound.2.trans hAnswers.key.symm)]

theorem replay_of_version (hFind : s.versionOf subject id key = some v)
    (hAnswers : Answers subject key operation fingerprint v) :
    s.replay cal subject id operation key fingerprint =
      (cal.validate v.snapshot).map fun series => some ⟨series, true⟩ := by
  unfold State.replay
  rw [hFind]
  simp only
  rw [if_pos ⟨hAnswers.operation, hAnswers.fingerprint⟩]
  cases cal.validate v.snapshot <;> rfl

variable {now' : Time}

/-- A change whose key was used before is answered from the table, if the
stored rule can be read. -/
theorem change_of_version {ifMatch' : String} (hOwned : s.owned subject id = .ok row)
    (hView : s.view cal row = .ok view) (hFind : s.versionOf subject id key = some v)
    (hAnswers : Answers subject key change.operation (env.changeFingerprint id change) v) :
    s.change env cal subject id change ifMatch' key now' =
      (cal.validate v.snapshot).map fun series => (⟨series, true⟩, s) := by
  unfold State.change
  rw [hOwned]
  show (s.view cal row >>= _) = _
  rw [hView]
  show (s.replay cal subject id change.operation key (env.changeFingerprint id change) >>= _) = _
  rw [replay_of_version hFind hAnswers]
  cases cal.validate v.snapshot <;> rfl

/-- A version that was filed is found, and its series can be read, from then
on. -/
theorem Answers.later (hRun : Run Unused (SeriesStep env cal) (s₂ :: t₂)) (hAfter : s' ∈ s₂ :: t₂)
    (hOwned : s'.owned subject id = .ok row) (hMem : v ∈ s'.versionsOf id)
    (hAnswers : Answers subject key operation fingerprint v) :
    ∃ row₂ view₂, s₂.owned subject id = .ok row₂ ∧ s₂.view cal row₂ = .ok view₂ ∧
      s₂.versionOf subject id key = some v ∧ cal.validate v.snapshot = .ok v.snapshot := by
  have hFiled := (aligned_run hRun s₂ mem_cons_self id).2
  have hGrows := grows_run hRun hAfter id
  obtain ⟨hRow, hTenant, hActor⟩ := owned_ok.mp hOwned
  obtain ⟨row₂, hRow₂, hTenant₂, hActor₂, -⟩ := hGrows.row row hRow
  obtain ⟨view₂, hView₂⟩ := hFiled.viewable row₂ hRow₂
  have hStill := hGrows.versions.subset hMem
  refine ⟨row₂, view₂, owned_ok.mpr ⟨hRow₂, hTenant₂.trans hTenant, hActor₂.trans hActor⟩, hView₂,
    hFiled.versionOf hStill hAnswers, validate_ok.mpr ⟨rfl, ?_⟩⟩
  exact (hFiled.filed row₂ hRow₂ v hStill).zone

/-- **A change that was carried out is not carried out again**, wherever in the
history it is repeated. -/
theorem Commits.replayed (hRun : Run Unused (SeriesStep env cal) (s₂ :: t₂))
    (hBefore : s ∈ s₂ :: t₂) (hAfter : s' ∈ s₂ :: t₂)
    (hCommit : Commits env cal subject id change ifMatch key s view s') (ifMatch' : String)
    (now' : Time) :
    s₂.change env cal subject id change ifMatch' key now' = .ok (⟨view, true⟩, s₂) := by
  obtain ⟨row, row', -, v, -, hOwned, -, -, -, hVersions, hAnswers, rfl⟩ :=
    hCommit.made fun other x hx => (sound_run hRun s hBefore other).keyed x hx
  have hMem : v ∈ s'.versionsOf id := hVersions ▸ mem_append_right _ mem_cons_self
  obtain ⟨row₂, view₂, hOwned₂, hView₂, hFind, hValid⟩ :=
    hAnswers.later hRun hAfter hOwned hMem
  rw [change_of_version hOwned₂ hView₂ hFind hAnswers, hValid]
  rfl

/-- A creation that is carried out, and not answered from the table. -/
def Creates (env : SeriesEnv) (cal : Calendar) (subject : Subject) (request : SeriesRequest)
    (key : Uuid) (s : State) (view : SeriesView) (s' : State) : Prop :=
  ∃ now, s.create env cal subject request key now = .ok (⟨view, false⟩, s')

theorem Creates.made (hCreate : Creates env cal subject request key s view s') :
    ∃ row v attachments, s'.owned subject (env.seriesId subject.tenantId subject.aiUserId key) =
        .ok row ∧
      v ∈ s'.versionsOf (env.seriesId subject.tenantId subject.aiUserId key) ∧
      Answers subject key .create (env.createFingerprint request) v ∧ v.snapshot = view ∧
      (∃ directory, directoryIdentity subject = .ok directory) ∧
      templateAttachments subject.tenantId subject.aiUserId request.template.attachmentIds
        s'.tasks.files = .ok attachments ∧ view.request = request := by
  obtain ⟨now, hOk⟩ := hCreate
  have hFirst : ∃ directory, directoryIdentity subject = .ok directory := by
    obtain ⟨directory, hDirectory, -⟩ := bind_ok.mp hOk
    exact ⟨directory, hDirectory⟩
  rcases create_ok hOk with ⟨-, -, -, hAnswer⟩ | ⟨directory, due, -, -, hNew⟩
  · -- An answer from the history is marked as one, and this is not.
    unfold State.answerCreate at hAnswer
    simp only [bind_ok] at hAnswer
    obtain ⟨row, -, replayed, hReplay, hAnswer⟩ := hAnswer
    cases replayed with
    | none => cases hAnswer
    | some result =>
      cases hAnswer
      exact absurd (replay_replayed hReplay) (by simp)
  · obtain ⟨made, hView, hResult, -, rfl⟩ := commit_ok hNew
    obtain rfl : view = made := congrArg SeriesMutationResult.series hResult
    obtain ⟨hShows, -, hFound⟩ := view_ok hView
    refine ⟨newRow env subject directory request key due now, versionRow subject
      (newRow env subject directory request key due now) .create key (env.createFingerprint request)
      now view, view.attachments, ?_, ?_, ⟨rfl, rfl, rfl, rfl, rfl⟩, rfl, hFirst, hFound,
      hShows.request⟩
    · refine owned_ok.mpr ⟨?_, rfl, rfl⟩
      exact State.put_series_self s (newRow env subject directory request key due now)
    · exact (committed_versionsOf_self rfl) ▸
        mem_append_right _ mem_cons_self

/-- A creation whose key was used before is answered from the table, once it has
got past the checks that come first. -/
theorem create_of_version
    (hOwned : s.owned subject (env.seriesId subject.tenantId subject.aiUserId key) = .ok row)
    (hFind : s.versionOf subject (env.seriesId subject.tenantId subject.aiUserId key) key = some v)
    (hAnswers : Answers subject key .create (env.createFingerprint request) v) :
    s.create env cal subject request key now' = (do
      let _ ← directoryIdentity subject
      let _ ← templateAttachments subject.tenantId subject.aiUserId request.template.attachmentIds
        s.tasks.files
      let _ ← firstDue cal request now'
      let series ← cal.validate v.snapshot
      pure (⟨series, true⟩, s)) := by
  obtain ⟨hRow, hTenant, -⟩ := owned_ok.mp hOwned
  -- directory, attachments and first due instant are asked for before the row is looked up
  refine bind_congr fun directory => bind_congr fun _ => bind_congr fun due => ?_
  simp only [newRow, hRow]
  rw [ensure, if_pos hTenant]
  unfold State.answerCreate
  simp only [hOwned]
  rw [replay_of_version hFind hAnswers]
  cases cal.validate v.snapshot <;> rfl

/-- **A creation that was carried out is answered again** where the first due
instant can still be calculated. -/
theorem Creates.replayed_iff (hRun : Run Unused (SeriesStep env cal) (s₂ :: t₂))
    (hAfter : s' ∈ s₂ :: t₂) (hCreate : Creates env cal subject request key s view s')
    (now' : Time) :
    s₂.create env cal subject request key now' = .ok (⟨view, true⟩, s₂) ↔
      ∃ due, firstDue cal request now' = .ok due := by
  obtain ⟨row, v, attachments, hOwned, hMem, hAnswers, rfl, ⟨directory, hDirectory⟩, hFound, -⟩ :=
    hCreate.made
  obtain ⟨row₂, view₂, hOwned₂, -, hFind, hValid⟩ := hAnswers.later hRun hAfter hOwned hMem
  -- uploads are never deleted, and the calendar is the one of the creation
  have hStill := templateAttachments_mono (grows_run hRun hAfter row.seriesId).uploads hFound
  rw [create_of_version hOwned₂ hFind hAnswers]
  simp only [bind_ok, hDirectory, hStill, hValid]
  constructor
  · rintro ⟨-, -, -, -, due, hDue, -⟩
    exact ⟨due, hDue⟩
  · rintro ⟨due, hDue⟩
    exact ⟨directory, rfl, attachments, rfl, due, hDue, v.snapshot, rfl, rfl⟩

/--
**Versions, rules and replays stay aligned.** In every interleaving of owners
and workers:

1. the versions of a series are 1..n, where n is its current version, and the
   last of them is a snapshot of the current rule;
2. at most one step of the history carries out a change with a given entity
   tag, where the digest in the tags tells the rules of the series apart;
3. a change that was carried out is answered with its snapshot whenever it is
   repeated under its key, and changes nothing;
4. so is a creation, if and only if the first due instant of its rule can be
   calculated at the time of the repetition.
-/
theorem series_versions_aligned {ps : Procs State Failure} (hRun : SeriesRun env cal h ps) :
    (∀ s ∈ h, ∀ id row, s.series id = some row →
      (s.versionsOf id).map (·.version) = List.range' 1 row.currentVersion ∧
      ∃ v, (s.versionsOf id).getLast? = some v ∧ v.version = row.currentVersion ∧
        v.snapshot.version = row.currentVersion ∧ v.snapshot.seriesId = id ∧
        v.snapshot.request = row.request) ∧
    (∀ id, TellsApart env id h → ∀ s₁ s₁' t₁ s₂ s₂' t₂, s₁' :: s₁ :: t₁ <:+ h →
      s₂' :: s₂ :: t₂ <:+ h → ∀ ifMatch subject₁ change₁ key₁ view₁ subject₂ change₂ key₂ view₂,
        Commits env cal subject₁ id change₁ ifMatch key₁ s₁ view₁ s₁' →
        Commits env cal subject₂ id change₂ ifMatch key₂ s₂ view₂ s₂' →
        s₁' :: s₁ :: t₁ = s₂' :: s₂ :: t₂ ∧ key₁ = key₂ ∧ view₁ = view₂) ∧
    (∀ s s' t s₂ t₂, s' :: s :: t <:+ s₂ :: t₂ → s₂ :: t₂ <:+ h →
      ∀ subject id change ifMatch key view,
        Commits env cal subject id change ifMatch key s view s' → ∀ ifMatch' now,
          s₂.change env cal subject id change ifMatch' key now = .ok (⟨view, true⟩, s₂)) ∧
    ∀ s s' t s₂ t₂, s' :: s :: t <:+ s₂ :: t₂ → s₂ :: t₂ <:+ h → ∀ subject request key view,
      Creates env cal subject request key s view s' → ∀ now,
        (s₂.create env cal subject request key now = .ok (⟨view, true⟩, s₂) ↔
          ∃ due, firstDue cal request now = .ok due) := by
  have hSteps := hRun.steps
  refine ⟨fun s hs id row hRow => ?_, ?_, ?_, ?_⟩
  · have hFiled := (aligned_run hSteps s hs id).2
    exact ⟨hFiled.numbered row hRow, hFiled.latest row hRow⟩
  · intro id hDigest s₁ s₁' t₁ s₂ s₂' t₂ hSuf₁ hSuf₂ ifMatch subject₁ change₁ key₁ view₁
      subject₂ change₂ key₂ view₂ hFirst hSecond
    exact Commits.unique hDigest hFirst hSecond hSteps hSuf₁ hSuf₂
  · intro s s' t s₂ t₂ hSuf hEnd subject id change ifMatch key view hCommit ifMatch' now
    exact hCommit.replayed (hSteps.of_suffix hEnd)
      (hSuf.subset (mem_cons_of_mem _ mem_cons_self))
      (hSuf.subset mem_cons_self) ifMatch' now
  · intro s s' t s₂ t₂ hSuf hEnd subject request key view hCreate now
    exact hCreate.replayed_iff (hSteps.of_suffix hEnd)
      (hSuf.subset mem_cons_self) now

/-! ## Sample histories -/

namespace Sample

theorem history_append (happenings : List Happening) (x : Happening) :
    history (happenings ++ [x]) = (x.turn plainEnv calendar).after (history happenings) := by
  rw [history, map_append, Turn.inTurn, foldl_append]
  rfl

theorem creates :
    ∃ s s' t view, history [.asked (.create .delivered creation)] = s' :: s :: t ∧
      Creates plainEnv calendar Dispatch.Sample.head daily 1 s view s' := by
  obtain ⟨⟨⟨view, replayed⟩, s'⟩, hCreate, hNew⟩ : ∃ out ∈ (empty.create plainEnv calendar
      Dispatch.Sample.head daily 1 empty.clock).toOption, out.1.replayed = false := by
    decide +kernel
  rw [mem_toOption] at hCreate
  obtain rfl : replayed = false := hNew
  refine ⟨empty, s', [empty, empty], view, ?_, empty.clock, hCreate⟩
  show ((SeriesCall.create .delivered creation).program plainEnv calendar).after [empty] = _
  exact congrArg (· :: _) (Prog.committed_ok hCreate)

theorem plainEnv_digest (r r' : SeriesRequest) (id id' : Uuid) (v v' : Nat)
    (hSame : plainEnv.ruleDigest r id v = plainEnv.ruleDigest r' id' v') : v = v' := by
  have hLists := congrArg String.toList hSame
  simpa [plainEnv] using congrArg List.length hLists

end Sample

open Recurrence.Sample

/-- The creation of the sample series is answered with its snapshot one day
later. -/
theorem series_versions_aligned_sample :
    ∃ s₂ view, s₂ ∈ history [.asked (.create .delivered creation), .elapsed (day 6)] ∧
      s₂.create plainEnv calendar Dispatch.Sample.head daily 1 s₂.clock =
        .ok (⟨view, true⟩, s₂) := by
  obtain ⟨s, s', t, view, hEq, hCreate⟩ := creates
  obtain ⟨s₂, t₂, hLast, hDue⟩ := head_spec
    (h := history ([.asked (.create .delivered creation)] ++ [.elapsed (day 6)]))
    (P := fun s => (firstDue calendar daily s.clock).toOption.isSome = true) (by decide +kernel)
  have hSuf : s' :: s :: t <:+ s₂ :: t₂ := by
    rw [← hLast, history_append, hEq]
    exact suffix_cons _ _
  obtain ⟨ps, hRun⟩ := history_run ([.asked (.create .delivered creation)] ++ [.elapsed (day 6)])
  obtain ⟨-, -, -, hReplay⟩ := series_versions_aligned hRun
  rw [hLast] at hReplay
  refine ⟨s₂, view, ?_, (hReplay s s' t s₂ t₂ hSuf suffix_rfl _ _ _ view hCreate _).mpr ?_⟩
  · exact (show history [.asked (.create .delivered creation), .elapsed (day 6)] = _ from
      hLast) ▸ mem_cons_self
  · obtain ⟨due, hFirst⟩ := Option.isSome_iff_exists.mp hDue
    exact ⟨due, mem_toOption.mp hFirst⟩

/-- **A repeated creation may be refused.** The head creates a series that is
due every day at half past two, and repeats the request on the day before the
clock leaves out that time. The request is not answered with its snapshot: its
first due instant is calculated anew before the table is asked. -/
theorem repeated_creation_refused :
    ¬ ∀ (env : SeriesEnv) (cal : Calendar) (h : List State) (ps : Procs State Failure),
      SeriesRun env cal h ps →
      (∀ r r' id id' v v', env.ruleDigest r id v = env.ruleDigest r' id' v' → v = v') →
      ∀ s s' t s₂ t₂, s' :: s :: t <:+ s₂ :: t₂ → s₂ :: t₂ <:+ h →
        ∀ subject request key view, Creates env cal subject request key s view s' →
          s₂.create env cal subject request key s₂.clock = .ok (⟨view, true⟩, s₂) := by
  intro hClaim
  obtain ⟨s, s', t, view, hEq, hCreate⟩ := creates
  obtain ⟨s₂, t₂, hLast, hDue⟩ := head_spec
    (h := history ([.asked (.create .delivered creation)] ++ [.elapsed (day 9 + 10800000000)]))
    (P := fun s => (s.create plainEnv calendar Dispatch.Sample.head daily 1
      s.clock).toOption.isNone = true) (by decide +kernel)
  have hSuf : s' :: s :: t <:+ s₂ :: t₂ := by
    rw [← hLast, history_append, hEq]
    exact suffix_cons _ _
  obtain ⟨ps, hRun⟩ := history_run
    ([.asked (.create .delivered creation)] ++ [.elapsed (day 9 + 10800000000)])
  have hAnswer := hClaim _ _ _ _ hRun plainEnv_digest s s' t s₂ t₂ hSuf
    (hLast ▸ suffix_rfl) _ _ _ view hCreate
  rw [hAnswer] at hDue
  cases hDue

end EternalAI.Recurrence
