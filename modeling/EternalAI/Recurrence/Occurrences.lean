import EternalAI.Recurrence.Steps
import EternalAI.Dispatch.Lifecycle

/-!
# Recurring series — which occurrences are recorded

The next due instant of a series is the only memory a worker has of what was
done. Linked to the table of occurrences by an invariant, it says exactly which
instants of an unedited rule are recorded: those between the first due instant
and the next one. What an edit does to instants that are already due is the
second subject.

* `SoundAt` — what always holds of one series and its occurrences.
* `unedited_series_complete` — nothing is skipped and nothing recorded twice,
  however workers are interleaved.
* `due_instants_kept` — an instant that is due is dropped by an edit of a due
  series only.
-/

namespace EternalAI.Recurrence

open Lib Dispatch List

variable {env : SeriesEnv} {cal : Calendar} {s s' s₀ : State} {t h : List State} {id : Uuid}
  {row row₀ : SeriesRow} {request : SeriesRequest}

def State.Recorded (s : State) (id : Uuid) (instant : Time) : Prop :=
  ∃ o ∈ s.occurrencesOf id, o.scheduledAt = instant

/-- The instants of a rule from one instant on and before another. -/
def Between (cal : Calendar) (request : SeriesRequest) (first next instant : Time) : Prop :=
  Instant cal request instant ∧ first ≤ instant ∧ instant < next

/-! ## Moving on by one instant -/

variable {scheduled : Time}

theorem Settled.recorded (hSettled : Settled s s' id row scheduled) (instant : Time) :
    s'.Recorded id instant ↔ s.Recorded id instant ∨ instant = scheduled := by
  unfold State.Recorded
  rcases hSettled with ⟨hSame, o, hMem, hTime⟩ | ⟨o, -, -, -, hTime, hNew⟩
  · rw [hSame]
    refine ⟨.inl, fun hEither => hEither.elim (fun hOld => hOld) ?_⟩
    rintro rfl
    exact ⟨o, hMem, hTime⟩
  · simp only [hNew, mem_append, mem_singleton]
    constructor
    · rintro ⟨p, hp | rfl, hp'⟩
      · exact .inl ⟨p, hp, hp'⟩
      · exact .inr (hp'.symm.trans hTime)
    · rintro (⟨p, hp, hp'⟩ | rfl)
      · exact ⟨p, .inl hp, hp'⟩
      · exact ⟨o, .inr rfl, hTime⟩

theorem nextScheduled_later {due : Time}
    (hNext : nextScheduled cal request ⟨scheduled, false, true⟩ = .ok due) : scheduled < due :=
  (nextScheduled_instant hNext).2.elim (fun hLt => hLt) fun hEq => absurd hEq.1 (by simp)

theorem between_advance {first due : Time} (hInstant : Instant cal request scheduled)
    (hFirst : first ≤ scheduled)
    (hNext : nextScheduled cal request ⟨scheduled, false, true⟩ = .ok due) (instant : Time) :
    Between cal request first due instant ↔
      Between cal request first scheduled instant ∨ instant = scheduled := by
  have hLater := nextScheduled_later hNext
  constructor
  · rintro ⟨hThis, hFrom, hTo⟩
    rcases lt_trichotomy instant scheduled with hLt | rfl | hGt
    · exact .inl ⟨hThis, hFrom, hLt⟩
    · exact .inr rfl
    · exact absurd (nextScheduled_least hNext hThis (.inl hGt)) (not_le.mpr hTo)
  · rintro (⟨hThis, hFrom, hTo⟩ | rfl)
    · exact ⟨hThis, hFrom, lt_trans hTo hLater⟩
    · exact ⟨hInstant, hFirst, hLater⟩

/-! ## The invariant of one series -/

/-- What always holds of one series: it is due at an instant of its rule, and
its occurrences are its own and different from each other. As long as its rule
is the first one, they are the instants since it was first due. -/
structure SoundAt (cal : Calendar) (s : State) (id : Uuid) : Prop where
  keyed : ∀ row, s.series id = some row → row.seriesId = id
  due : ∀ row, s.series id = some row → row.request.enabled = true →
    ∃ next, row.nextDueAt = some next ∧ Instant cal row.request next
  own : ∀ o ∈ s.occurrencesOf id, ∃ row, s.series id = some row ∧ o.tenantId = row.tenantId
  once : ((s.occurrencesOf id).map (·.scheduledAt)).Nodup
  since : ∀ row, s.series id = some row → row.request.enabled = true → row.currentVersion = 1 →
    ∃ v first next, v ∈ s.versionsOf id ∧ v.version = 1 ∧ v.snapshot.nextDueAt = some first ∧
      row.nextDueAt = some next ∧ first ≤ next ∧
      ∀ instant, s.Recorded id instant ↔ Between cal row.request first next instant
  counted : ∀ row, s.series id = some row → 1 ≤ row.currentVersion

theorem SoundAt.instant (hSound : SoundAt cal s id) (hRow : s.series id = some row)
    (hOn : row.request.enabled = true) (hAt : row.nextDueAt = some scheduled) :
    Instant cal row.request scheduled := by
  obtain ⟨due, hDue, hInstant⟩ := hSound.due row hRow hOn
  exact Option.some.inj (hDue.symm.trans hAt) ▸ hInstant

theorem SoundAt.tenant (hSound : SoundAt cal s id) (hRow : s.series id = some row) :
    ∀ o ∈ s.occurrencesOf id, o.tenantId = row.tenantId := by
  intro o hMem
  obtain ⟨row', hRow', hTenant⟩ := hSound.own o hMem
  rwa [Option.some.inj (hRow.symm.trans hRow')]

theorem keyed_of_sound (hSound : ∀ id, SoundAt cal s id) : Keyed s :=
  fun id row hRow => (hSound id).keyed row hRow

theorem soundAt_unused (hUnused : Unused s) : SoundAt cal s id where
  keyed := fun row hRow => by simp [hUnused.1] at hRow
  due := fun row hRow => by simp [hUnused.1] at hRow
  own := fun o hMem => by simp [State.occurrencesOf, hUnused.2.2.1] at hMem
  once := by simp [State.occurrencesOf, hUnused.2.2.1]
  since := fun row hRow => by simp [hUnused.1] at hRow
  counted := fun row hRow => by simp [hUnused.1] at hRow

variable {due : Option Time} {now : Time}

theorem firstDue_instant (hDue : firstDue cal request now = .ok due)
    (hOn : request.enabled = true) : ∃ next, due = some next ∧ Instant cal request next := by
  unfold firstDue at hDue
  rw [if_pos hOn] at hDue
  obtain ⟨next, hNext, hOk⟩ := bind_ok.mp hDue
  exact ⟨next, (Except.ok.inj hOk).symm, (nextScheduled_instant hNext).1⟩

variable {change : Change} {old : SeriesView}

theorem Change.nextDue_instant (hDue : change.nextDue cal old now = .ok due)
    (hOld : old.request.enabled = true →
      ∃ next, old.nextDueAt = some next ∧ Instant cal old.request next)
    (hOn : (change.rule old.request).enabled = true) :
    ∃ next, due = some next ∧ Instant cal (change.rule old.request) next := by
  unfold Change.nextDue at hDue
  split at hDue
  · rename_i hKeep
    obtain ⟨next, hNext, hInstant⟩ := hOld hKeep.2
    cases hDue
    refine ⟨next, hNext, ?_⟩
    -- Switching on a rule that is on gives the same rule.
    cases change with
    | enable => exact hInstant
    | update request | disable => exact absurd hKeep.1 (by simp [Change.operation])
  · obtain ⟨next, hNext, hOk⟩ := bind_ok.mp hDue
    exact ⟨next, (Except.ok.inj hOk).symm, (nextScheduled_instant hNext).1⟩

theorem SoundAt.kept (hSound : SoundAt cal s id) (hSeries : s'.series id = s.series id)
    (hVersions : s'.versionsOf id = s.versionsOf id)
    (hOccurrences : s'.occurrencesOf id = s.occurrencesOf id) : SoundAt cal s' id where
  keyed := by rw [hSeries]; exact hSound.keyed
  due := by rw [hSeries]; exact hSound.due
  own := by rw [hSeries, hOccurrences]; exact hSound.own
  once := by rw [hOccurrences]; exact hSound.once
  since := by
    unfold State.Recorded
    rw [hSeries, hVersions, hOccurrences]
    exact hSound.since
  counted := by rw [hSeries]; exact hSound.counted

variable {subject : Subject} {key : Uuid}

theorem SoundAt.created {directory : Str} {view : SeriesView} {version : VersionRow}
    (hSound : SoundAt cal s id) (hNone : s.series id = none)
    (hDue : firstDue cal request now = .ok due)
    (hId : env.seriesId subject.tenantId subject.aiUserId key = id)
    (hView : Shows (newRow env subject directory request key due now) view)
    (hVersion : version.version = 1 ∧ version.snapshot = view)
    (hNew : s'.series id = some (newRow env subject directory request key due now))
    (hVersions : s'.versionsOf id = s.versionsOf id ++ [version])
    (hOccurrences : s'.occurrencesOf id = s.occurrencesOf id) : SoundAt cal s' id := by
  -- an occurrence belongs to a series that is there, and this one was not
  have hEmpty : s'.occurrencesOf id = [] := by
    rw [hOccurrences, eq_nil_iff_forall_not_mem]
    intro o hMem
    obtain ⟨row, hRow, -⟩ := hSound.own o hMem
    rw [hNone] at hRow
    cases hRow
  refine ⟨forall_some hNew hId, forall_some hNew (firstDue_instant hDue), ?_, ?_,
    forall_some hNew fun hOn _ => ?_, forall_some hNew (le_refl 1)⟩
  · rw [hEmpty]
    exact fun o hMem => nomatch hMem
  · rw [hEmpty]
    exact nodup_nil
  · obtain ⟨next, rfl, -⟩ := firstDue_instant hDue hOn
    refine ⟨version, next, next, by simp [hVersions], hVersion.1, ?_, rfl, le_refl _, ?_⟩
    · rw [hVersion.2, hView.nextDueAt]
      rfl
    · intro instant
      unfold State.Recorded
      rw [hEmpty]
      constructor
      · rintro ⟨o, hMem, -⟩
        cases hMem
      · -- first and next due instant are the same, and nothing lies between
        rintro ⟨-, hFrom, hTo⟩
        exact absurd hFrom (not_le.mpr hTo)

theorem SoundAt.changed (hSound : SoundAt cal s id) (hOwned : s.owned subject id = .ok row)
    (hOld : Shows row old) (hDue : change.nextDue cal old now = .ok due)
    (hNew : s'.series id = some (row.changed change due now))
    (hOccurrences : s'.occurrencesOf id = s.occurrencesOf id) : SoundAt cal s' id := by
  have hRow := (owned_ok.mp hOwned).1
  have hCount := hSound.counted row hRow
  refine ⟨forall_some hNew (hSound.keyed row hRow :), forall_some hNew fun hOn => ?_, ?_, ?_,
    forall_some hNew fun _ hFirst => ?_, forall_some hNew (Nat.le_add_left 1 _)⟩
  · have hBefore := hSound.due row hRow
    rw [← hOld.request, ← hOld.nextDueAt] at hBefore
    have hAfter := Change.nextDue_instant hDue hBefore
    rw [hOld.request] at hAfter
    exact hAfter hOn
  · rw [hOccurrences]
    exact fun o hMem => ⟨_, hNew, hSound.tenant hRow o hMem⟩
  · rw [hOccurrences]
    exact hSound.once
  · -- from the second version on nothing is said about the first rule
    have hNext : row.currentVersion + 1 = 1 := hFirst
    omega

theorem SoundAt.advanced {due : Time} (hSound : SoundAt cal s id) (hRow : s.series id = some row)
    (hOn : row.request.enabled = true) (hAt : row.nextDueAt = some scheduled)
    (hNext : nextScheduled cal row.request ⟨scheduled, false, true⟩ = .ok due)
    (hNew : s'.series id = some (row.advanced due)) (hVersions : s'.versionsOf id = s.versionsOf id)
    (hSettled : Settled s s' id row scheduled) : SoundAt cal s' id := by
  have hOwn := hSound.tenant hRow
  refine ⟨forall_some hNew (hSound.keyed row hRow :),
    forall_some hNew fun _ => ⟨due, rfl, (nextScheduled_instant hNext).1⟩, fun o hMem => ?_, ?_,
    forall_some hNew fun _ hFirst => ?_, forall_some hNew (hSound.counted row hRow :)⟩
  · refine ⟨_, hNew, ?_⟩
    rcases hSettled with ⟨hSame, -⟩ | ⟨new, -, hTenant, -, -, hAll⟩
    · exact hOwn o (hSame ▸ hMem)
    · rw [hAll] at hMem
      rcases mem_append.mp hMem with hMem | hMem
      · exact hOwn o hMem
      · rw [mem_singleton.mp hMem]
        exact hTenant
  · rcases hSettled with ⟨hSame, -⟩ | ⟨new, hFree, -, -, hTime, hAll⟩
    · rw [hSame]
      exact hSound.once
    · -- the worker looks among the occurrences of the tenant, and those are all there are
      rw [hAll]
      refine nodup_map_append_new hSound.once fun o hMem => ?_
      rw [hTime]
      exact hFree o hMem (hOwn o hMem)
  · obtain ⟨v, first, next, hMem, hOne, hSnap, hIs, hLe, hAll⟩ := hSound.since row hRow hOn hFirst
    obtain rfl := Option.some.inj (hIs.symm.trans hAt)
    refine ⟨v, first, due, hVersions ▸ hMem, hOne, hSnap, rfl, ?_, fun instant => ?_⟩
    · exact hLe.trans (nextScheduled_later hNext).le
    · rw [hSettled.recorded, hAll]
      exact (between_advance (hSound.instant hRow hOn hAt) hLe hNext instant).symm

theorem SeriesMove.sound (hMove : SeriesMove env cal s s' id) (hSound : SoundAt cal s id) :
    SoundAt cal s' id := by
  cases hMove with
  | kept hSeries hVersions hOccurrences => exact hSound.kept hSeries hVersions hOccurrences
  | created hNone hDue hId hView hNew hVersions hOccurrences =>
    exact hSound.created hNone hDue hId (view_ok hView).1 ⟨rfl, rfl⟩ hNew hVersions hOccurrences
  | changed hOwned hOld _ hDue _ hNew _ hOccurrences =>
    exact hSound.changed hOwned (view_ok hOld).1 hDue hNew hOccurrences
  | advanced hRow hOn hAt hNext hNew hVersions hSettled =>
    exact hSound.advanced hRow hOn hAt hNext hNew hVersions hSettled

theorem sound_step (hSound : ∀ id, SoundAt cal s id) (hStep : SeriesStep env cal (s :: t) s') :
    ∀ id, SoundAt cal s' id := by
  intro id
  exact (hStep.move (keyed_of_sound hSound) id).sound (hSound id)

theorem sound_run (hRun : Run Unused (SeriesStep env cal) h) :
    ∀ s ∈ h, ∀ id, SoundAt cal s id :=
  hRun.mem_inv (fun _ hUnused _ => soundAt_unused hUnused) fun _ _ _ hSound hStep =>
    sound_step hSound hStep

/-! ## What is recorded while a rule stands -/

/-- From one state to a later one of the same version, exactly the instants
between the two next due instants are added to what is recorded. -/
def Spans (cal : Calendar) (id : Uuid) (s₀ s : State) : Prop :=
  ∀ row₀, s₀.series id = some row₀ → ∃ row, s.series id = some row ∧
    row₀.currentVersion ≤ row.currentVersion ∧
    (row.currentVersion = row₀.currentVersion → row.request = row₀.request ∧
      (row₀.request.enabled = true → ∀ first, row₀.nextDueAt = some first →
        ∃ next, row.nextDueAt = some next ∧ first ≤ next ∧
          ∀ instant, s.Recorded id instant ↔
            s₀.Recorded id instant ∨ Between cal row.request first next instant))

theorem Spans.refl (s : State) : Spans cal id s s := by
  intro row hRow
  refine ⟨row, hRow, le_refl _, fun _ => ⟨rfl, fun _ first hFirst => ?_⟩⟩
  refine ⟨first, hFirst, le_refl _, fun instant => ⟨.inl, fun hEither => ?_⟩⟩
  rcases hEither with hOld | ⟨-, hFrom, hTo⟩
  · exact hOld
  · exact absurd hFrom (not_le.mpr hTo)

theorem Spans.trans {a b c : State} (hab : Spans cal id a b) (hbc : Spans cal id b c) :
    Spans cal id a c := by
  intro row₀ hRow₀
  obtain ⟨row₁, hRow₁, hLe₁, hSame₁⟩ := hab row₀ hRow₀
  obtain ⟨row₂, hRow₂, hLe₂, hSame₂⟩ := hbc row₁ hRow₁
  -- versions only grow, so between two states of one version nothing was edited
  refine ⟨row₂, hRow₂, hLe₁.trans hLe₂, fun hVersion => ?_⟩
  obtain ⟨hRule₁, hAdded₁⟩ := hSame₁ (by omega)
  obtain ⟨hRule₂, hAdded₂⟩ := hSame₂ (by omega)
  refine ⟨hRule₂.trans hRule₁, fun hOn first hFirst => ?_⟩
  obtain ⟨mid, hMid, hFirstMid, hAll₁⟩ := hAdded₁ hOn first hFirst
  obtain ⟨next, hNext, hMidNext, hAll₂⟩ := hAdded₂ (by rw [hRule₁]; exact hOn) mid hMid
  refine ⟨next, hNext, hFirstMid.trans hMidNext, fun instant => ?_⟩
  rw [hAll₂, hAll₁, or_assoc, hRule₂]
  refine or_congr_right ⟨?_, ?_⟩
  · rintro (⟨hThis, hFrom, hTo⟩ | ⟨hThis, hFrom, hTo⟩)
    · exact ⟨hThis, hFrom, lt_of_lt_of_le hTo hMidNext⟩
    · exact ⟨hThis, hFirstMid.trans hFrom, hTo⟩
  · rintro ⟨hThis, hFrom, hTo⟩
    rcases lt_or_ge instant mid with hLt | hGe
    · exact .inl ⟨hThis, hFrom, hLt⟩
    · exact .inr ⟨hThis, hGe, hTo⟩

theorem SeriesMove.spans (hMove : SeriesMove env cal s s' id) (hSound : SoundAt cal s id) :
    Spans cal id s s' := by
  cases hMove with
  | kept hSeries _ hOccurrences =>
    intro row hRow
    obtain ⟨row', hRow', hLe, hSame⟩ := (Spans.refl s : Spans cal id s s) row hRow
    refine ⟨row', hSeries ▸ hRow', hLe, ?_⟩
    unfold State.Recorded at hSame ⊢
    rw [hOccurrences]
    exact hSame
  | created hNone =>
    intro row hRow
    rw [hNone] at hRow
    cases hRow
  | changed hOwned _ _ _ _ hNew =>
    refine forall_some (owned_ok.mp hOwned).1 ⟨_, hNew, Nat.le_succ _, fun hVersion => ?_⟩
    exact absurd hVersion (Nat.succ_ne_self _)
  | advanced hRow hOn hAt hNext hNew _ hSettled =>
    have hInstant := hSound.instant hRow hOn hAt
    refine forall_some hRow ⟨_, hNew, le_refl _, fun _ => ⟨rfl, fun _ => forall_some hAt ?_⟩⟩
    refine ⟨_, rfl, (nextScheduled_later hNext).le, fun instant => ?_⟩
    -- up to the next due instant there is only the one that the worker has settled
    refine (hSettled.recorded instant).trans (or_congr_right ?_)
    refine Iff.trans ?_ (between_advance hInstant (le_refl _) hNext instant).symm
    refine ⟨.inr, fun hEither => hEither.elim ?_ fun hEq => hEq⟩
    rintro ⟨-, hFrom, hTo⟩
    exact absurd hFrom (not_le.mpr hTo)

theorem spans_run (hRun : Run Unused (SeriesStep env cal) (s :: t)) (hMem : s₀ ∈ s :: t) :
    Spans cal id s₀ s := by
  refine (hRun.mem_inv_rel (I := fun s => ∀ id, SoundAt cal s id)
    (fun _ hUnused _ => soundAt_unused hUnused) Spans.refl Spans.trans ?_ s₀ hMem).2
  intro a t' b hPast hStep
  have hSound := (hPast a mem_cons_self).1
  refine ⟨sound_step hSound hStep, ?_⟩
  exact (hStep.move (keyed_of_sound hSound) id).spans (hSound id)

/-- A worker moves an unedited series on to the very next instant. -/
theorem SeriesMove.next {row' : SeriesRow} (hMove : SeriesMove env cal s s' id)
    (hSound : SoundAt cal s id) (hRow : s.series id = some row) (hRow' : s'.series id = some row')
    (hSame : row'.currentVersion = row.currentVersion) :
    row' = row ∨ ∃ due next, row.nextDueAt = some due ∧ row'.nextDueAt = some next ∧ due < next ∧
      Instant cal row.request due ∧ Instant cal row.request next ∧ s'.Recorded id due ∧
      ∀ instant, Instant cal row.request instant → due < instant → next ≤ instant := by
  cases hMove with
  | kept hSeries =>
    rw [hSeries, hRow] at hRow'
    exact .inl (Option.some.inj hRow').symm
  | created hNone =>
    rw [hNone] at hRow
    cases hRow
  | changed hOwned _ _ _ _ hNew =>
    obtain rfl := Option.some.inj ((owned_ok.mp hOwned).1.symm.trans hRow)
    rw [hNew] at hRow'
    rw [← Option.some.inj hRow'] at hSame
    exact absurd hSame (Nat.succ_ne_self _)
  | advanced hOld hOn hAt hNext hNew _ hSettled =>
    obtain rfl := Option.some.inj (hOld.symm.trans hRow)
    rw [hNew] at hRow'
    rw [← Option.some.inj hRow']
    refine .inr ⟨_, _, hAt, rfl, nextScheduled_later hNext, hSound.instant hOld hOn hAt,
      (nextScheduled_instant hNext).1, (hSettled.recorded _).mpr (.inr rfl), ?_⟩
    exact fun instant hThis hAfter => nextScheduled_least hNext hThis (.inl hAfter)

/--
**An unedited series misses nothing and repeats nothing.** In every interleaving
of workers, owners and everything else:

* from a state in which the series is enabled to a later one of the same
  version, what is recorded grows by exactly the instants of the rule between
  the two next due instants;
* while the first rule stands, what is recorded are exactly the instants since
  the series was first due;
* no instant is recorded twice;
* a step leaves the next due instant of the version alone, or moves it to the
  very next instant of the rule once the one it passes is recorded;
* a round of a worker that fails leaves the store as it was, unless it was
  carried out as a whole and only the answer to its commit was lost.
-/
theorem unedited_series_complete {ps : Procs State Failure} (hRun : SeriesRun env cal h ps)
    (id : Uuid) :
    (∀ s₀ s t, s :: t <:+ h → s₀ ∈ s :: t → ∀ row₀ row, s₀.series id = some row₀ →
      s.series id = some row → row₀.request.enabled = true →
      row.currentVersion = row₀.currentVersion → row.request = row₀.request ∧
        ∃ first next, row₀.nextDueAt = some first ∧ row.nextDueAt = some next ∧ first ≤ next ∧
          ∀ instant, s.Recorded id instant ↔
            s₀.Recorded id instant ∨ Between cal row.request first next instant) ∧
    (∀ s ∈ h, ∀ row, s.series id = some row → row.request.enabled = true →
      row.currentVersion = 1 → ∃ v first next, v ∈ s.versionsOf id ∧ v.version = 1 ∧
        v.snapshot.nextDueAt = some first ∧ row.nextDueAt = some next ∧
        ∀ instant, s.Recorded id instant ↔ Between cal row.request first next instant) ∧
    (∀ s ∈ h, ((s.occurrencesOf id).map (·.scheduledAt)).Nodup) ∧
    (∀ s s' t, s' :: s :: t <:+ h → ∀ row row', s.series id = some row →
      s'.series id = some row' → row'.currentVersion = row.currentVersion →
      row' = row ∨ ∃ due next, row.nextDueAt = some due ∧ row'.nextDueAt = some next ∧
        due < next ∧ Instant cal row.request due ∧ Instant cal row.request next ∧
        s'.Recorded id due ∧
        ∀ instant, Instant cal row.request instant → due < instant → next ≤ instant) ∧
    ∀ now failed round steps e, (workerRound env cal now failed round).Ends steps (.error e) →
      Prog.Still steps ∨ round.ack = .lost ∧ ∃ s recorded s', steps = [(s, s')] ∧
        s.generateOne env cal now failed round = .ok (recorded, s') := by
  have hSteps := hRun.steps
  have hSound := sound_run hSteps
  refine ⟨?_, ?_, fun s hs => (hSound s hs id).once, ?_, ?_⟩
  · -- `Spans` speaks of the first due instant where there is one, and an enabled rule has one
    intro s₀ s t hSuf hMem row₀ row hRow₀ hRow hOn hVersion
    have hSpans := spans_run (hSteps.of_suffix hSuf) hMem row₀ hRow₀
    obtain ⟨row', hRow', -, hSame⟩ := hSpans
    obtain rfl := Option.some.inj (hRow.symm.trans hRow')
    obtain ⟨hRule, hAdded⟩ := hSame hVersion
    obtain ⟨first, hFirst, -⟩ := (hSound s₀ (hSuf.subset hMem) id).due row₀ hRow₀ hOn
    obtain ⟨next, hNext, hLe, hAll⟩ := hAdded hOn first hFirst
    exact ⟨hRule, first, next, hFirst, hNext, hLe, hAll⟩
  · -- the invariant has this of every state, beginning with the creation of the series
    intro s hs row hRow hOn hVersion
    obtain ⟨v, first, next, hMem, hOne, hSnap, hNext, -, hAll⟩ :=
      (hSound s hs id).since row hRow hOn hVersion
    exact ⟨v, first, next, hMem, hOne, hSnap, hNext, hAll⟩
  · intro s s' t hSuf row row' hRow hRow' hVersion
    have hHere : ∀ other, SoundAt cal s other :=
      hSound s (hSuf.subset (mem_cons_of_mem _ mem_cons_self))
    have hStep := (hSteps.of_suffix hSuf).last_step
    -- with the version kept, only a worker can have moved the series
    have hMove := hStep.move (keyed_of_sound hHere) id
    exact hMove.next (hHere id) hRow hRow' hVersion
  · -- a round that wrote and still failed was not told of its commit
    intro now failed round steps e hEnds
    obtain ⟨-, hStill⟩ | ⟨s, recorded, s', hOk, hSteps, ⟨-, hTold⟩ | ⟨hLost, -⟩⟩ :=
      hEnds.of_transact
    · exact .inl hStill
    · cases hTold
    · exact .inr ⟨hLost, s, recorded, s', hSteps, hOk⟩

/-! ## What an edit does to instants that are due -/

def State.Enabled (s : State) (id : Uuid) : Prop :=
  ∃ row, s.series id = some row ∧ row.request.enabled = true

/-- An instant of an enabled series that is due, and that the series has not
moved past. -/
def DueAt (cal : Calendar) (s : State) (id : Uuid) (instant : Time) : Prop :=
  ∃ row due, s.series id = some row ∧ row.request.enabled = true ∧ row.nextDueAt = some due ∧
    Instant cal row.request instant ∧ due ≤ instant ∧ instant ≤ s.clock

/-- A step does not store a new enabled rule for an enabled series that is
due. -/
def Awaits (s s' : State) (id : Uuid) : Prop :=
  ∀ v ∈ s'.versionsOf id, v ∉ s.versionsOf id → v.operation = .update →
    v.snapshot.request.enabled = true → ∀ row due, s.series id = some row →
    row.request.enabled = true → row.nextDueAt = some due → s.clock < due

theorem versionOf_none {v : VersionRow} (hNone : s.versionOf subject id key = none)
    (hSeries : v.seriesId = id) (hTenant : v.tenantId = subject.tenantId)
    (hActor : v.actorAiUserId = subject.aiUserId) (hKey : v.idempotencyKey = key) :
    v ∉ s.versions := by
  intro hMem
  refine find?_eq_none.mp hNone v hMem ?_
  simp [hSeries, hTenant, hActor, hKey]

/-- A change that keeps the series enabled leaves its due instant alone, unless
it is a new rule. -/
theorem SeriesRow.changed_due (hOld : Shows row old) (hOn : row.request.enabled = true)
    (hStill : (row.changed change due now).request.enabled = true)
    (hDue : change.nextDue cal old now = .ok due) :
    (due = row.nextDueAt ∧ (row.changed change due now).request = row.request) ∨
      change.operation = .update := by
  cases change with
  | update request => exact .inr rfl
  | disable => cases hStill
  | enable =>
    unfold Change.nextDue at hDue
    rw [if_pos ⟨rfl, by rw [hOld.request]; exact hOn⟩, hOld.nextDueAt] at hDue
    refine .inl ⟨(Except.ok.inj hDue).symm, ?_⟩
    rw [SeriesRow.changed, Change.rule, ← hOn]

theorem SeriesStep.onward (hStep : SeriesStep env cal (s :: t) s') :
    s.clock ≤ s'.clock ∧ filesAt none s.tasks.files <+: filesAt none s'.tasks.files := by
  cases hStep with
  | outside hOut => exact ⟨hOut.clock, hOut.uploads⟩
  | create hOk =>
    rcases create_ok hOk with ⟨rfl, -⟩ | ⟨directory, due, -, -, hCommit⟩
    · exact ⟨le_rfl, prefix_rfl⟩
    · obtain ⟨view, -, -, -, rfl⟩ := commit_ok hCommit
      exact ⟨le_rfl, prefix_rfl⟩
  | change hOk =>
    rcases change_ok hOk with ⟨rfl, -⟩ | ⟨row, old, due, -, -, -, -, -, hCommit⟩
    · exact ⟨le_rfl, prefix_rfl⟩
    · obtain ⟨view, -, -, -, rfl⟩ := commit_ok hCommit
      exact ⟨le_rfl, prefix_rfl⟩
  | generate hOk =>
    rcases generateOne_ok hOk with rfl | ⟨row, scheduled, due, state, mid, -, hSettle, -, rfl⟩
    · exact ⟨le_rfl, prefix_rfl⟩
    · rcases settle_ok hSettle with ⟨rfl, -, -⟩ | ⟨-, tasks, items, -, -, hFiles, rfl⟩
      · exact ⟨le_rfl, prefix_rfl⟩
      · exact ⟨le_rfl, hFiles ▸ prefix_rfl⟩

variable {instant : Time}

theorem SeriesMove.recorded_mono (hMove : SeriesMove env cal s s' id)
    (hRecorded : s.Recorded id instant) : s'.Recorded id instant := by
  cases hMove with
  | kept _ _ hOccurrences | created _ _ _ _ _ _ hOccurrences
  | changed _ _ _ _ _ _ _ hOccurrences =>
    unfold State.Recorded
    rwa [hOccurrences]
  | advanced _ _ _ _ _ _ hSettled => exact (hSettled.recorded instant).mpr (.inl hRecorded)

theorem SeriesMove.dueAt (hMove : SeriesMove env cal s s' id) (hAwaits : Awaits s s' id)
    (hClock : s.clock ≤ s'.clock) (hOn' : s'.Enabled id) (hDue : DueAt cal s id instant) :
    s'.Recorded id instant ∨ DueAt cal s' id instant := by
  obtain ⟨row, due, hRow, hOn, hAt, hInstant, hFrom, hTo⟩ := hDue
  obtain ⟨row', hRow', hOn'⟩ := hOn'
  cases hMove with
  | kept hSeries => exact .inr ⟨row, due, hSeries ▸ hRow, hOn, hAt, hInstant, hFrom,
      hTo.trans hClock⟩
  | created hNone =>
    rw [hNone] at hRow
    cases hRow
  | changed hOwned hOld hKey hDue hView hNew hVersions =>
    obtain rfl := Option.some.inj ((owned_ok.mp hOwned).1.symm.trans hRow)
    rw [hNew] at hRow'
    cases hRow'
    rcases SeriesRow.changed_due (view_ok hOld).1 hOn hOn' hDue with ⟨hKept, hRule⟩ | hUpdate
    · -- an enabled series was switched on again, which moves nothing
      refine .inr ⟨_, due, hNew, hOn', hKept.trans hAt, ?_, hFrom, hTo.trans hClock⟩
      rwa [hRule]
    · -- The rule is new, and then the series was not due.
      have hMem := hVersions ▸ mem_append_right _ mem_cons_self
      have hEarly := hAwaits _ hMem ?_ hUpdate
        (by rw [versionRow, (view_ok hView).1.request]; exact hOn') _ due hRow hOn hAt
      · exact absurd (hFrom.trans hTo) (not_le.mpr hEarly)
      · intro hOldRow
        obtain ⟨hMem, hSeries⟩ := mem_filter.mp hOldRow
        exact versionOf_none hKey (of_decide_eq_true hSeries) rfl rfl rfl hMem
  | advanced hOld _ hDue hNext hNew _ hSettled =>
    obtain rfl := Option.some.inj (hOld.symm.trans hRow)
    obtain rfl := Option.some.inj (hDue.symm.trans hAt)
    -- the instant is the one that was settled, or it comes later and the cursor stops before it
    rcases eq_or_lt_of_le hFrom with rfl | hLater
    · exact .inl ((hSettled.recorded _).mpr (.inr rfl))
    · exact .inr ⟨_, _, hNew, hOn, rfl, hInstant, nextScheduled_least hNext hInstant (.inl hLater),
        hTo.trans hClock⟩

/--
**A due instant is not dropped** in any interleaving in which no new rule is
stored for a series that is due: from then on the instant is recorded, or it is
still due, as long as the owner does not switch the series off.
-/
theorem due_instants_kept {ps : Procs State Failure} (hRun : SeriesRun env cal h ps) (id : Uuid)
    (hAwaits : ∀ s s' t, s' :: s :: t <:+ h → Awaits s s' id) :
    ∀ l s₀ t, l ++ s₀ :: t <:+ h → ∀ instant, DueAt cal s₀ id instant →
      (∀ x ∈ l, x.Enabled id) → ∀ s ∈ (l ++ [s₀]).head?,
        s.Recorded id instant ∨ DueAt cal s id instant := by
  have hSteps := hRun.steps
  intro l s₀ t
  -- One step at a time, from the state in which the instant is due.
  induction l with
  | nil =>
    intro _ instant hDue _ s hs
    cases hs
    exact .inr hDue
  | cons s' l ih =>
    intro hSuf instant hDue hOn s hs
    cases hs
    have hRest : l ++ s₀ :: t <:+ h := (suffix_cons _ _).trans hSuf
    obtain ⟨mid, t', hMid, hLast⟩ : ∃ mid t', l ++ s₀ :: t = mid :: t' ∧
        (l ++ [s₀]).head? = some mid := by
      cases l with
      | nil => exact ⟨s₀, t, rfl, rfl⟩
      | cons x l => exact ⟨x, l ++ s₀ :: t, rfl, rfl⟩
    have hSuf' : s' :: mid :: t' <:+ h := by
      rw [cons_append, hMid] at hSuf
      exact hSuf
    have hSound := sound_run hSteps mid
      (hSuf'.subset (mem_cons_of_mem _ mem_cons_self))
    have hStep := (hSteps.of_suffix hSuf').last_step
    have hMove := hStep.move (keyed_of_sound hSound) id
    rcases ih hRest instant hDue (fun x hx => hOn x (mem_cons_of_mem _ hx)) mid hLast with
      hRecorded | hStill
    · exact .inl (hMove.recorded_mono hRecorded)
    · exact hMove.dueAt (hAwaits mid s' t' hSuf') hStep.onward.1 (hOn s' mem_cons_self) hStill

/-! ## Sample histories -/

/-- A request to the service, or the passing of time. -/
inductive Happening where
  | asked (call : SeriesCall)
  | elapsed (time : Time)

def Happening.turn (env : SeriesEnv) (cal : Calendar) : Happening → Turn State Failure
  | .asked call => .call (call.program env cal)
  | .elapsed time => .outside fun s => { s with clock := max s.clock time }

namespace Sample

/-- A clock that leaves out the hour after two o'clock on the tenth day. -/
def zone : Zone where
  utc := fun w => some (if w < 871200000000 then w else w - 3600000000)
  wall := fun u => let w := if u < 871200000000 then u else u + 3600000000
    if dateOf w ≤ dateMax then some w else none
  ordered := by
    intro w shown instant moment hUtc hBack hWall hLt
    simp only [Option.some.injEq] at hUtc
    simp only [Option.ite_none_right_eq_some, Option.some.injEq] at hBack hWall
    obtain ⟨-, hBack⟩ := hBack
    obtain ⟨-, hWall⟩ := hWall
    have hReading : w < shown := not_le.mp fun hLe =>
      absurd (Int.ediv_le_ediv (by decide) hLe) (not_le.mpr hLt)
    split at hWall <;> split at hBack <;> split at hUtc <;> linarith
  representable := by
    intro shown moment hWall
    simp only [Option.ite_none_right_eq_some, Option.some.injEq] at hWall
    rw [← hWall.2]
    exact hWall.1

def calendar : Calendar := fun timezone => if timezone = ['z'] then some zone else none

def day (n : Nat) : Time := n * 86400000000

/-- Half past two, and half past five in the afternoon. -/
def halfPastTwo : ClockTime := ⟨9000000000, by decide, by decide⟩

def deadline : DeadlineSpec := ⟨0, ⟨63000000000, by decide, by decide⟩⟩

def template : SeriesTemplate where
  kind := .task
  title := Dispatch.Sample.request.title
  requirement := Dispatch.Sample.request.requirement
  receiptRequirement := Dispatch.Sample.request.receiptRequirement
  reminderChoices := []
  targets := Dispatch.Sample.request.targets
  dispatchMode := .independent
  completionMode := .confirmRequired
  leadTarget := none
  attachmentIds := []
  remindersCanonical := Dispatch.Sample.request.remindersCanonical
  targetsNodup := Dispatch.Sample.request.targetsNodup
  targetsNonempty := Dispatch.Sample.request.targetsNonempty
  leadFits := Dispatch.Sample.request.leadFits

def daily : SeriesRequest where
  weekdays := [1, 2, 3, 4, 5, 6, 7]
  localTime := halfPastTwo
  timezone := ['z']
  startDate := 1
  deadlineSpec := deadline
  template := template
  enabled := true
  weekdaysNonempty := by decide
  weekdaysRange := by decide
  startDateRange := by decide

/-- Ids and digests that only show the key, the time and the version. -/
def plainEnv : SeriesEnv where
  dispatch := Dispatch.Sample.plainEnv
  seriesId := fun _ _ key => key
  occurrenceKey := fun _ time => time.toNat
  createFingerprint := fun _ => ""
  changeFingerprint := fun _ _ => ""
  ruleDigest := fun _ _ version => String.ofList (List.replicate version 'v')

def etag (version : Nat) : String :=
  "\"wosr-" ++ String.ofList (List.replicate version 'v') ++ "\""

def validation : Validation := ⟨0, .ok Dispatch.Sample.preparation⟩

def creation : CreateCall := ⟨Dispatch.Sample.head, daily, 1, validation⟩

def edit : ChangeCall := ⟨Dispatch.Sample.head, 1, .update daily, etag 1, 2, validation⟩

def round (n : Nat) (preparation : Except Failure Preparation) : Round :=
  ⟨1, n, preparation, ⟨Dispatch.Sample.clock, fun k => k⟩, .delivered⟩

def empty : State where
  clock := day 5
  tasks := Dispatch.Sample.empty
  series := fun _ => none
  versions := []
  occurrences := []
  items := []

section

variable (happenings : List Happening)

/-- The history after some things have happened one after the other. -/
def history : List State :=
  Turn.inTurn (happenings.map (Happening.turn plainEnv calendar)) [empty]

theorem history_run : ∃ ps, SeriesRun plainEnv calendar (history happenings) ps := by
  refine PoolRun.inTurn ⟨fun _ => rfl, rfl, rfl, rfl⟩ fun turn hTurn => ?_
  obtain ⟨x, -, rfl⟩ := mem_map.mp hTurn
  cases x with
  | asked call => exact fun _ => ⟨call, rfl⟩
  | elapsed time => exact fun s => ⟨le_max_left _ _, prefix_rfl, rfl, rfl, rfl, rfl⟩

/-- Two days pass before a worker gets to the series: one occurrence is
generated, the other is blocked by a missing directory. -/
def catchUp : List Happening :=
  [.asked (.create .delivered creation), .elapsed (day 7), .asked (.generate
    [round 1 (.ok Dispatch.Sample.preparation), round 2 (.error .organizationDirectoryMissing)])]

/-- The head stores the rule anew on the day after the series was first due. -/
def editedLate : List Happening :=
  [.asked (.create .delivered creation), .elapsed (day 6), .asked (.change .delivered edit)]

theorem history_since (n : Nat) {P Q : State → Prop}
    (hSince : ∃ s₀ ∈ ((history happenings).drop n).head?, P s₀)
    (hLater : ∀ x ∈ (history happenings).take n, Q x) :
    ∃ l s₀ t, history happenings = l ++ s₀ :: t ∧
      (l ++ [s₀]).head? = (history happenings).head? ∧ P s₀ ∧ ∀ x ∈ l, Q x := by
  obtain ⟨s₀, t, hEq, hHere⟩ := head_spec hSince
  have hSplit : history happenings = (history happenings).take n ++ s₀ :: t := by
    rw [← hEq, take_append_drop]
  refine ⟨(history happenings).take n, s₀, t, hSplit, ?_, hHere, hLater⟩
  generalize (history happenings).take n = l at hSplit
  rw [hSplit]
  cases l <;> rfl

end

/-- Series 1 is switched on, and due at an instant that has passed. -/
abbrev DueSince (first : Time) (s : State) : Prop :=
  ∃ row ∈ s.series 1, row.request.enabled = true ∧ row.nextDueAt = some first ∧ first ≤ s.clock

variable {s : State}

theorem dueAt_of_dueSince (happenings : List Happening) {first : Time}
    (hMem : s ∈ history happenings) (hDue : DueSince first s) : DueAt calendar s 1 first := by
  obtain ⟨row, hRow, hOn, hAt, hClock⟩ := hDue
  obtain ⟨ps, hRun⟩ := history_run happenings
  have hSound := sound_run hRun.steps s hMem 1
  exact ⟨row, first, hRow, hOn, hAt, hSound.instant hRow hOn hAt, le_refl _, hClock⟩

abbrev SwitchedOn (s : State) : Prop := ∃ row ∈ s.series 1, row.request.enabled = true

end Sample

open Recurrence.Sample

/-- In the sample history two instants have passed, and they are what is
recorded. -/
theorem unedited_series_complete_sample :
    ∃ s ∈ history catchUp, ∃ row first next, s.series 1 = some row ∧
      row.nextDueAt = some next ∧ (s.occurrencesOf 1).length = 2 ∧
      ∀ instant, s.Recorded 1 instant ↔
        Between calendar row.request first next instant := by
  obtain ⟨s, hHead, hTwo, row, hRow, hOn, hFirst⟩ : ∃ s ∈ (history catchUp).head?,
      (s.occurrencesOf 1).length = 2 ∧ ∃ row ∈ s.series 1, row.request.enabled = true ∧
        row.currentVersion = 1 := by decide +kernel
  obtain ⟨ps, hRun⟩ := history_run catchUp
  have hMem : s ∈ history catchUp := mem_of_mem_head? hHead
  obtain ⟨-, hSince, -⟩ := unedited_series_complete hRun 1
  obtain ⟨v, first, next, -, -, -, hNext, hAll⟩ := hSince s hMem row hRow hOn hFirst
  exact ⟨s, hMem, row, first, next, hRow, hNext, hTwo, hAll⟩

/-- In the sample history the instant that was due is recorded at the end. -/
theorem due_instants_kept_sample :
    ∃ l s₀ t s, history catchUp = l ++ s₀ :: t ∧ DueAt calendar s₀ 1 (day 5 + 9000000000) ∧
      (l ++ [s₀]).head? = some s ∧ s.Recorded 1 (day 5 + 9000000000) := by
  obtain ⟨l, s₀, t, hEq, hHead, hDue, hLater⟩ := history_since catchUp 3
    (P := DueSince (day 5 + 9000000000)) (Q := SwitchedOn)
    (by decide +kernel) (by decide +kernel)
  obtain ⟨s, hLast, row, hRow, hNext⟩ : ∃ s ∈ (history catchUp).head?, ∃ row ∈ s.series 1,
      row.nextDueAt = some (day 7 + 9000000000) := by decide +kernel
  obtain ⟨ps, hRun⟩ := history_run catchUp
  have hDue' : DueAt calendar s₀ 1 (day 5 + 9000000000) :=
    dueAt_of_dueSince catchUp (hEq ▸ mem_append_right _ mem_cons_self) hDue
  rw [hLast] at hHead
  have hUnedited : ∀ s ∈ history catchUp, ∀ v ∈ s.versionsOf 1, v.operation = .create := by
    decide +kernel
  have hKept := due_instants_kept hRun 1 (fun s s' t hSuf v hv _ hOp => ?_) l s₀ t
    (hEq ▸ suffix_rfl) _ hDue' hLater s hHead
  · refine ⟨l, s₀, t, s, hEq, hDue', hHead, hKept.elim (fun hRec => hRec) ?_⟩
    rintro ⟨row', due, hRow', -, hAt, -, hFrom, -⟩
    obtain rfl := Option.some.inj (hRow.symm.trans hRow')
    obtain rfl := Option.some.inj (hNext.symm.trans hAt)
    exact absurd hFrom (by decide)
  · rw [hUnedited s' (hSuf.subset mem_cons_self) v hv] at hOp
    cases hOp

/-- **An edit drops an instant that is due.** The head stores the rule anew on
the day after the series was first due, before a worker has come to it. The
series stays enabled and moves on to the next day, and the first day is never
recorded. -/
theorem edited_series_drops_due_instant :
    ¬ ∀ (env : SeriesEnv) (cal : Calendar) (h : List State) (ps : Procs State Failure),
      SeriesRun env cal h ps → ∀ id l s₀ t, l ++ s₀ :: t <:+ h → ∀ instant,
        DueAt cal s₀ id instant → (∀ x ∈ l, x.Enabled id) → ∀ s ∈ (l ++ [s₀]).head?,
          s.Recorded id instant ∨ DueAt cal s id instant := by
  intro hClaim
  obtain ⟨l, s₀, t, hEq, hHead, hDue, hLater⟩ := history_since editedLate 4
    (P := DueSince (day 5 + 9000000000)) (Q := SwitchedOn)
    (by decide +kernel) (by decide +kernel)
  obtain ⟨s, hLast, hNone, row, hRow, hNext⟩ : ∃ s ∈ (history editedLate).head?,
      s.occurrencesOf 1 = [] ∧ ∃ row ∈ s.series 1, row.nextDueAt = some (day 6 + 9000000000) := by
    decide +kernel
  obtain ⟨ps, hRun⟩ := history_run editedLate
  rw [hLast] at hHead
  have hDue' := dueAt_of_dueSince editedLate (hEq ▸ mem_append_right _ mem_cons_self) hDue
  -- nothing is recorded at the end, and the series is due a day after the instant
  rcases hClaim _ _ _ _ hRun 1 l s₀ t (hEq ▸ suffix_rfl) _ hDue'
    hLater s hHead with
    ⟨o, hMem, -⟩ | ⟨row', due, hRow', -, hAt, -, hFrom, -⟩
  · rw [hNone] at hMem
    cases hMem
  · obtain rfl := Option.some.inj (hRow.symm.trans hRow')
    obtain rfl := Option.some.inj (hNext.symm.trans hAt)
    exact absurd hFrom (by decide)

end EternalAI.Recurrence
