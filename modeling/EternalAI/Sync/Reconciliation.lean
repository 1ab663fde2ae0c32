import EternalAI.Sync.Steps

/-!
# OA synchronisation — generations, reconciliation and validity

What holds along every interleaving of synchronisations:

* the applied generation never exceeds the issued one, and both only grow;
* a ticket that a later attempt has superseded changes nothing any more;
* an applied snapshot leaves exactly its references current, and every other
  observation of the user unconfirmed;
* whatever is stored passes the validators that run when it is read.

The last two rest on invariants of the tables: a row of a stream is in one of
three shapes (`SyncRow.Sound`), and an observation belongs to the OA row of its
user and reference (`Tables`).

* `oa_sync_consistent` — the main result.
-/

namespace EternalAI.Sync

open Lib List
open Dispatch (Str Time strip pythonWhitespace)

variable {s s' : State} {t h : List State} {ticket : OASyncTicket} {displayName : Str}
  {collection : OAPendingWorkSnapshotCollection} {fetchedAt : Time}
  {draw : SourceText → Option Str} {wr : Writing} {user : Str} {stream : OASyncStream}
  {ps : Procs State Failure}

/-! ## Rows of streams -/

/-- The shapes of a stored row: an attempt is running, has published, or has
failed. -/
inductive SyncRow.Sound : SyncRow → Prop
  | running {issued applied : Nat} {startedAt : Time} {success : Option Time} :
      applied < issued → (applied = 0 ↔ success = none) →
      Sound ⟨issued, applied, .running, some startedAt, none, success, none⟩
  | succeeded {issued : Nat} {startedAt fetchedAt : Time} :
      0 < issued → startedAt ≤ fetchedAt →
      Sound ⟨issued, issued, .succeeded, some startedAt, some fetchedAt, some fetchedAt, none⟩
  | failed {issued applied : Nat} {startedAt finishedAt : Time} {success : Option Time}
      {code : OASyncFailureCode} :
      applied < issued → (applied = 0 ↔ success = none) →
      (code = .clockInvalid ∨ startedAt ≤ finishedAt) →
      Sound ⟨issued, applied, .failed, some startedAt, some finishedAt, success, some code⟩

variable {row : SyncRow}

theorem SyncRow.Sound.success (hSound : row.Sound) :
    row.appliedGeneration ≤ row.issuedGeneration ∧
      (row.appliedGeneration = 0 ↔ row.lastSuccessAt = none) := by
  cases hSound with
  | running hLt hIff | failed hLt hIff _ => exact ⟨Nat.le_of_lt hLt, hIff⟩
  | succeeded hPos _ => exact ⟨Nat.le_refl _, iff_of_false (Nat.ne_of_gt hPos) nofun⟩

variable {old new : Option SyncRow}

/-- **A move keeps the shape.** -/
theorem RowMove.sound (hMove : RowMove old new) (hOld : ∀ row ∈ old, row.Sound) :
    ∀ row ∈ new, row.Sound := by
  intro row' hNew
  cases hMove with
  | kept => exact hOld row' hNew
  | begun startedAt =>
    cases hNew
    -- a new attempt keeps what was applied, and is above it
    cases old with
    | none => exact .running Nat.one_pos (iff_of_true rfl rfl)
    | some row =>
      obtain ⟨hLe, hIff⟩ := (hOld row rfl).success
      exact .running (Nat.lt_succ_of_le hLe) hIff
  | @published row startedAt fetchedAt hLt hAttempt hTime =>
    cases hNew
    rw [SyncRow.published, hAttempt]
    exact .succeeded (Nat.zero_lt_of_lt hLt) hTime
  | @failed row startedAt finishedAt code hLt hAttempt hTime =>
    cases hNew
    rw [SyncRow.failedWith, hAttempt]
    exact .failed hLt (hOld row rfl).success.2 hTime

theorem SyncRow.Sound.consistent (hSound : row.Sound) (subject : OASyncSubject)
    (stream : OASyncStream) : (OASyncStatus.mk row subject stream).consistent = .ok () := by
  refine bind_ok.mpr ⟨(), ?_, ?_⟩
  · cases hSound with
    | running hLt hIff | failed hLt hIff _ =>
      simp [OASyncStatusView.consistent, SyncRow.toView, AttemptStatus.view, ensure_bind_ok,
        ensure_ok, hIff, hLt, Nat.le_of_lt hLt, Nat.ne_of_gt (Nat.zero_lt_of_lt hLt)]
    | succeeded hPos hTime =>
      simp [OASyncStatusView.consistent, SyncRow.toView, AttemptStatus.view, ensure_bind_ok,
        ensure_ok, hTime, Nat.ne_of_gt hPos]
  · cases hSound with
    | running hLt hIff => simp [SyncRow.finishConsistent, ensure_ok]
    | succeeded hPos hTime =>
      simp [SyncRow.finishConsistent, ensure_bind_ok, ensure_ok, hTime]
    | failed hLt hIff hTime =>
      simpa [SyncRow.finishConsistent, ensure_bind_ok, ensure_ok] using hTime

theorem SyncRow.never_consistent (subject : OASyncSubject) (stream : OASyncStream) :
    (OASyncStatus.mk SyncRow.never subject stream).consistent = .ok () := by
  simp [OASyncStatus.consistent, OASyncStatusView.consistent, SyncRow.toView, SyncRow.never,
    AttemptStatus.view, SyncRow.finishConsistent, ensure_bind_ok, ensure_ok]

theorem RowMove.grows (hMove : RowMove old new) :
    (old.getD SyncRow.never).issuedGeneration ≤ (new.getD SyncRow.never).issuedGeneration ∧
    (old.getD SyncRow.never).appliedGeneration ≤ (new.getD SyncRow.never).appliedGeneration := by
  cases hMove with
  | kept | failed _ _ _ => exact ⟨Nat.le_refl _, Nat.le_refl _⟩
  | begun startedAt =>
    cases old with
    | none => exact ⟨Nat.zero_le _, Nat.zero_le _⟩
    | some row => exact ⟨Nat.le_succ _, Nat.le_refl _⟩
  | published hLt _ _ => exact ⟨Nat.le_refl _, Nat.le_of_lt hLt⟩

/-! ## Tables -/

structure Observation.Sound (o : Observation) : Prop where
  reconciled : o.pendingState ≠ .legacyUnverified
  revision : o.revision ≠ 0
  times : o.lastSeenAt ≤ o.lastCheckedAt
  current : o.pendingState = .current → o.lastCheckedAt = o.lastSeenAt

variable {o : Observation}

theorem Observation.Sound.consistent (hSound : o.Sound) : o.view.consistent = .ok () := by
  unfold OAObservation.consistent Observation.view
  rw [if_neg hSound.reconciled]
  exact ensure_ok.mpr ⟨hSound.revision, by
    simpa [← imp_iff_not_or] using ⟨hSound.times, hSound.current⟩⟩

structure Tables (s : State) : Prop where
  rows : ∀ user stream, ∀ row ∈ s.sync user stream, row.Sound
  keys : (s.works.map Work.key).Nodup
  linked : ∀ o ∈ s.observations, ∃ w ∈ s.works, w.workObjectId = o.workObjectId ∧ w.key = o.key
  sound : ∀ o ∈ s.observations, o.Sound

theorem tables_unused (hs : Unused s) : Tables s := by
  obtain ⟨hSync, hWorks, hObs⟩ := hs
  refine ⟨fun user stream row hRow => ?_, ?_, ?_, ?_⟩
  · rw [hSync] at hRow
    cases hRow
  · rw [hWorks]
    exact nodup_nil
  · rw [hObs]
    exact fun o ho => nomatch ho
  · rw [hObs]
    exact fun o ho => nomatch ho

variable {works : List Work}

theorem Rewritten.linked {works' : List Work} (hWrite : Rewritten wr works works')
    (hLinked : ∃ w ∈ works, w.workObjectId = o.workObjectId ∧ w.key = o.key) :
    ∃ w ∈ works', w.workObjectId = o.workObjectId ∧ w.key = o.key := by
  obtain ⟨w, hw, hId, hKey⟩ := hLinked
  obtain ⟨w', hw', hId', hKey'⟩ := hWrite.kept w hw
  exact ⟨w', hw', hId'.trans hId, hKey'.trans hKey⟩

variable {w : Work}

theorem mem_worksOf : w ∈ s.worksOf user ↔ w ∈ s.works ∧ w.assigneeAiUserId = user := by
  simp [State.worksOf]

/-- **The observations after a snapshot was applied** are those of the user's
rows as they are now, and those of other users. -/
theorem Applied.observations (hTables : Tables s) (hApplied : Applied s ticket collection wr s')
    (o : Observation) : o ∈ s'.observations ↔
      (∃ w ∈ s'.worksOf wr.aiUserId,
        o = observed collection.refs ticket.generation wr.fetchedAt w) ∨
      (o ∈ s.observations ∧ o.aiUserId ≠ wr.aiUserId) := by
  obtain ⟨-, hWrite, -, hObs⟩ := publish_ok hApplied.published
  have hKeys' := hWrite.keys hTables.keys
  have hOwnKeys : ((s'.worksOf wr.aiUserId).map Work.key).Nodup :=
    hKeys'.sublist (filter_sublist.map _)
  have hNews : (((s'.worksOf wr.aiUserId).map (observed collection.refs ticket.generation
      wr.fetchedAt)).map Observation.key) = (s'.worksOf wr.aiUserId).map Work.key := by
    rw [map_map]
    rfl
  -- Works are never removed, so an observation of the user is one of a work that is still there.
  have hOld : ∀ o ∈ s.observations, o.aiUserId = wr.aiUserId →
      ∃ w ∈ s'.worksOf wr.aiUserId, w.workObjectId = o.workObjectId ∧ w.key = o.key := by
    intro o ho hUser
    obtain ⟨w, hw, hId, hKey⟩ := hWrite.linked (hTables.linked o ho)
    exact ⟨w, mem_worksOf.mpr ⟨hw, (Prod.mk.inj hKey).1.trans hUser⟩, hId, hKey⟩
  rw [observe_ok hObs (hNews ▸ hOwnKeys), hNews, mem_map]
  · constructor
    · rintro (⟨w, hw, rfl⟩ | ⟨hMem, hNot⟩)
      · exact .inl ⟨w, hw, rfl⟩
      · refine .inr ⟨hMem, fun hUser => hNot ?_⟩
        obtain ⟨w, hw, -, hKey⟩ := hOld o hMem hUser
        exact mem_map.mpr ⟨w, hw, hKey⟩
    · rintro (⟨w, hw, rfl⟩ | ⟨hMem, hOther⟩)
      · exact .inl ⟨w, hw, rfl⟩
      · refine .inr ⟨hMem, fun hIn => hOther ?_⟩
        obtain ⟨w, hw, hKey⟩ := mem_map.mp hIn
        exact (Prod.mk.inj hKey).1.symm.trans (mem_worksOf.mp hw).2
  · -- an observation under the key of a selected row is of the same work object
    intro new hNew o ho hKey
    obtain ⟨w, hw, rfl⟩ := mem_map.mp hNew
    obtain ⟨hMem, hUser⟩ := mem_worksOf.mp hw
    obtain ⟨w', hw', hId', hKey'⟩ := hOld o ho ((Prod.mk.inj hKey).1.trans hUser)
    obtain rfl := inj_on_of_nodup_map hKeys' (mem_worksOf.mp hw').1 hMem (hKey'.trans hKey)
    exact hId'.symm

/-- What the statement on the observations selects is sound: a row of the
collection was fetched now, and no row later than that. -/
theorem Applied.observed_sound (hApplied : Applied s ticket collection wr s')
    (hw : w ∈ s'.worksOf wr.aiUserId) :
    (observed collection.refs ticket.generation wr.fetchedAt w).Sound := by
  obtain ⟨-, hWrite, hRefs, -⟩ := publish_ok hApplied.published
  obtain ⟨hMem, hUser⟩ := mem_worksOf.mp hw
  refine ⟨?_, Nat.ne_of_gt ticket.positive, ?_, fun hCurrent => ?_⟩
  · simp only [observed]
    split <;> exact nofun
  · rcases hWrite.origin w hMem with hOld | ⟨-, hNow⟩
    · exact hApplied.latest w (mem_worksOf.mpr ⟨hOld, hUser⟩)
    · exact le_of_eq hNow
  · -- a current row is one of the collection, and those were all fetched now
    have hRef : w.source.sourceRef ∈ collection.refs := by
      by_contra hNot
      simp only [observed, if_neg hNot] at hCurrent
      cases hCurrent
    exact ((hRefs _ hRef).2 w hMem (Prod.ext hUser rfl)).symm

/-- **Every step keeps the tables.** -/
theorem SyncStep.tables (hTables : Tables s) (hStep : SyncStep (s :: t) s') : Tables s' := by
  have hRows : ∀ user stream, ∀ row ∈ s'.sync user stream, row.Sound := fun user stream =>
    (hStep.rowMove user stream).sound (hTables.rows user stream)
  cases hStep with
  | same => exact hTables
  | began subject stream startedAt => exact ⟨hRows, hTables.keys, hTables.linked, hTables.sound⟩
  | applied hOk =>
    rcases apply_ok hOk with ⟨-, rfl⟩ | ⟨-, hApplied⟩
    · exact hTables
    · obtain ⟨-, hWrite, -, -⟩ := publish_ok hApplied.published
      refine ⟨hRows, hWrite.keys hTables.keys, fun o ho => ?_, fun o ho => ?_⟩
      · rcases (hApplied.observations hTables o).mp ho with ⟨w, hw, rfl⟩ | ⟨hOld, -⟩
        · exact ⟨w, (mem_worksOf.mp hw).1, rfl, rfl⟩
        · exact hWrite.linked (hTables.linked o hOld)
      · rcases (hApplied.observations hTables o).mp ho with ⟨w, hw, rfl⟩ | ⟨hOld, -⟩
        · exact hApplied.observed_sound hw
        · exact hTables.sound o hOld
  | failed ticket code finishedAt =>
    rcases finishFailure_cases s ticket code finishedAt with
      hSame | ⟨row, -, -, hEq⟩
    · rw [hSame]
      exact hTables
    · rw [hEq] at hRows ⊢
      exact ⟨hRows, hTables.keys, hTables.linked, hTables.sound⟩
  | upserted hOk =>
    obtain ⟨works, hWorks, hOk⟩ := bind_ok.mp hOk
    cases hOk
    obtain ⟨hWrite, -⟩ := upsertPending_ok hWorks
    exact ⟨hRows, hWrite.keys hTables.keys, fun o ho => hWrite.linked (hTables.linked o ho),
      hTables.sound⟩

theorem tables_run (hRun : Run Unused SyncStep h) : ∀ s ∈ h, Tables s :=
  hRun.mem_inv (fun _ => tables_unused) fun _ _ _ hTables hStep => hStep.tables hTables

/-! ## Generations along a run -/

def Ahead (s s' : State) : Prop :=
  ∀ user stream, (s.row user stream).issuedGeneration ≤ (s'.row user stream).issuedGeneration ∧
    (s.row user stream).appliedGeneration ≤ (s'.row user stream).appliedGeneration

theorem Ahead.refl (s : State) : Ahead s s := fun _ _ => ⟨Nat.le_refl _, Nat.le_refl _⟩

theorem Ahead.trans {a b c : State} (hab : Ahead a b) (hbc : Ahead b c) : Ahead a c :=
  fun user stream => ⟨(hab user stream).1.trans (hbc user stream).1,
    (hab user stream).2.trans (hbc user stream).2⟩

theorem ahead_run (hRun : Run Unused SyncStep (s :: t)) : ∀ s₀ ∈ s :: t, Ahead s₀ s :=
  hRun.rel_head Ahead.refl Ahead.trans fun _ _ _ hStep user stream =>
    (hStep.rowMove user stream).grows

/-! ## Tickets -/

/-- The ticket was issued in the last step of this history. -/
def Issued (ticket : OASyncTicket) : List State → Prop
  | s' :: s :: _ => s.begin ticket.subject ticket.stream ticket.startedAt = (ticket, s')
  | _ => False

theorem Issued.generation (hIssued : Issued ticket (s' :: t)) :
    (s'.row ticket.subject.aiUserId ticket.stream).issuedGeneration = ticket.generation := by
  cases t with
  | nil => exact hIssued.elim
  | cons s t =>
    obtain ⟨hTicket, rfl⟩ := Prod.mk.inj hIssued
    rw [State.row, setSync_self, Option.getD_some]
    exact congrArg OASyncTicket.generation hTicket

theorem Issued.succ (hIssued : Issued ticket (s' :: s :: t)) :
    ticket.generation =
      (s.row ticket.subject.aiUserId ticket.stream).issuedGeneration + 1 := by
  obtain ⟨hTicket, -⟩ := Prod.mk.inj hIssued
  have hBegun : ∀ row : Option SyncRow, (SyncRow.begun ticket.startedAt row).issuedGeneration =
      (row.getD SyncRow.never).issuedGeneration + 1 := by
    intro row
    cases row <;> rfl
  exact (congrArg OASyncTicket.generation hTicket).symm.trans (hBegun _)

section

variable
  (hOther : (s.row ticket.subject.aiUserId ticket.stream).issuedGeneration ≠ ticket.generation)

include hOther

theorem superseded_apply :
    Prog.committed (State.apply ticket displayName collection fetchedAt draw) s = s := by
  cases hOk : s.apply ticket displayName collection fetchedAt draw with
  | error e => exact Prog.committed_error hOk
  | ok r =>
    rw [Prog.committed_ok hOk]
    rcases apply_ok hOk with ⟨-, hSame⟩ | ⟨-, hApplied⟩
    · exact hSame
    · -- `apply` compares the generation with the issued one under the lock of the row
      obtain ⟨row, hRow, hIssued, -⟩ := hApplied.row
      rw [hApplied.stream, State.row, hRow] at hOther
      exact absurd hIssued hOther

theorem superseded_finish (code : OASyncFailureCode) (finishedAt : Time) :
    s.finishFailure ticket code finishedAt = s := by
  rcases finishFailure_cases s ticket code finishedAt with
    hSame | ⟨row, hRow, hAwaits, -⟩
  · exact hSame
  · rw [State.row, hRow] at hOther
    exact absurd hAwaits.1 hOther

end

/-- Once a later attempt of the stream has begun, the issued generation is above
the ticket's. -/
theorem superseded_generation {later : OASyncTicket} {s₁ s₂ s₂' : State} {t₁ t₂ : List State}
    (hRun : Run Unused SyncStep h) (hFirst : Issued ticket (s₁ :: t₁))
    (hLater : Issued later (s₂' :: s₂ :: t₂))
    (hSame : later.subject = ticket.subject ∧ later.stream = ticket.stream)
    (hOrder : s₁ :: t₁ <:+ s₂ :: t₂) (hSince : s₂' :: s₂ :: t₂ <:+ s :: t)
    (hHere : s :: t <:+ h) :
    ticket.generation < (s.row ticket.subject.aiUserId ticket.stream).issuedGeneration := by
  have hRun' := hRun.of_suffix hHere
  have hRun₂ := hRun'.of_suffix ((suffix_cons _ _).trans hSince)
  have hUpTo := (ahead_run hRun₂ s₁ (hOrder.subset mem_cons_self)
    ticket.subject.aiUserId ticket.stream).1
  have hOnward := (ahead_run hRun' s₂' (hSince.subset mem_cons_self)
    ticket.subject.aiUserId ticket.stream).1
  -- up to the later attempt, by one with it, and onward from it
  have hNext := hLater.generation.trans hLater.succ
  rw [hSame.1, hSame.2] at hNext
  rw [hFirst.generation] at hUpTo
  omega

/-! ## The main result -/

/-- The user's observations are those of a collection: its references are
current, all others unconfirmed, and every OA row of the user has one. -/
structure Reconciled (s : State) (user : Str) (refs : List SourceText) : Prop where
  current : ∀ ref ∈ refs, ∃ o ∈ s.observations, o.aiUserId = user ∧ o.sourceRef = ref ∧
    o.pendingState = .current
  marks : ∀ o ∈ s.observations, o.aiUserId = user →
    o.pendingState = if o.sourceRef ∈ refs then .current else .unconfirmed
  complete : ∀ w ∈ s.worksOf user, ∃ o ∈ s.observations,
    o.workObjectId = w.workObjectId ∧ o.key = w.key

theorem Applied.reconciled (hTables : Tables s) (hApplied : Applied s ticket collection wr s') :
    Reconciled s' wr.aiUserId collection.refs := by
  have hMem : ∀ w ∈ s'.worksOf wr.aiUserId,
      observed collection.refs ticket.generation wr.fetchedAt w ∈ s'.observations := fun w hw =>
    (hApplied.observations hTables _).mpr (.inl ⟨w, hw, rfl⟩)
  refine ⟨fun ref hRef => ?_, fun o ho hUser => ?_, fun w hw => ⟨_, hMem w hw, rfl, rfl⟩⟩
  · obtain ⟨-, -, hRefs, -⟩ := publish_ok hApplied.published
    obtain ⟨w, hw, hKey⟩ := mem_map.mp (hRefs ref hRef).1
    obtain ⟨hUser, hRef'⟩ := Prod.mk.inj hKey
    exact ⟨_, hMem w (mem_worksOf.mpr ⟨hw, hUser⟩), hUser, hRef', if_pos (hRef' ▸ hRef)⟩
  · rcases (hApplied.observations hTables o).mp ho with ⟨w, -, rfl⟩ | ⟨-, hOther⟩
    · rfl
    · exact absurd hUser hOther

/-- Everything that is stored passes its validator when it is read back. -/
structure Valid (s : State) : Prop where
  status : ∀ subject stream, (s.storedStatus subject stream).consistent = .ok ()
  observation : ∀ o ∈ s.observations, o.view.consistent = .ok ()
  record : ∀ w ∈ s.works, (s.observationOf w).consistent = .ok ()

theorem Tables.valid (hTables : Tables s) : Valid s := by
  refine ⟨fun subject stream => ?_, fun o ho => (hTables.sound o ho).consistent, fun w _ => ?_⟩
  · unfold State.storedStatus
    cases hRow : s.sync subject.aiUserId stream with
    | none => exact SyncRow.never_consistent subject stream
    | some row => exact (hTables.rows _ _ row hRow).consistent subject stream
  · unfold State.observationOf
    split
    · rename_i o hFound
      exact (hTables.sound o (mem_of_find?_eq_some hFound)).consistent
    · rfl

/--
**Synchronisations are consistent.** In every interleaving of synchronisations,
for every user and stream: the applied generation does not exceed the issued
one and neither goes back; a ticket superseded by a later attempt changes no
row; an applied snapshot leaves its references current and the user's others
unconfirmed; and every status and observation passes its validator.
-/
theorem oa_sync_consistent (hRun : SyncRun h ps) :
    (∀ s ∈ h, ∀ user stream,
      (s.row user stream).appliedGeneration ≤ (s.row user stream).issuedGeneration) ∧
    (∀ s t, s :: t <:+ h → ∀ s₀ ∈ s :: t, Ahead s₀ s) ∧
    (∀ ticket later s₁ t₁ s₂' s₂ t₂ s t, Issued ticket (s₁ :: t₁) →
      Issued later (s₂' :: s₂ :: t₂) →
      later.subject = ticket.subject ∧ later.stream = ticket.stream →
      s₁ :: t₁ <:+ s₂ :: t₂ → s₂' :: s₂ :: t₂ <:+ s :: t → s :: t <:+ h →
      (∀ displayName collection fetchedAt draw,
        Prog.committed (State.apply ticket displayName collection fetchedAt draw) s = s) ∧
      ∀ code finishedAt, s.finishFailure ticket code finishedAt = s) ∧
    (∀ s ∈ h, ∀ ticket displayName collection fetchedAt draw s',
      s.apply ticket displayName collection fetchedAt draw = .ok (.applied, s') →
      Reconciled s' ticket.subject.aiUserId collection.refs) ∧
    ∀ s ∈ h, Valid s := by
  have hSteps := hRun.steps
  have hTables := tables_run hSteps
  refine ⟨fun s hs user stream => ?_, fun s t hSuf => ?_, ?_, ?_, fun s hs => (hTables s hs).valid⟩
  · unfold State.row
    cases hRow : s.sync user stream with
    | none => exact Nat.le_refl _
    | some row => exact ((hTables s hs).rows user stream row hRow).success.1
  · exact ahead_run (hSteps.of_suffix hSuf)
  · intro ticket later s₁ t₁ s₂' s₂ t₂ s t hFirst hLater hSame hOrder hSince hHere
    have hLt := superseded_generation hSteps hFirst hLater hSame hOrder hSince hHere
    exact ⟨fun _ _ _ _ => superseded_apply (Nat.ne_of_gt hLt),
      superseded_finish (Nat.ne_of_gt hLt)⟩
  · intro s hs ticket displayName collection fetchedAt draw s' hOk
    rcases apply_ok hOk with ⟨hOut, -⟩ | ⟨-, hApplied⟩
    · cases hOut
    · exact hApplied.reconciled (hTables s hs)

namespace Sample

def text (c : Char) (hBlank : strip pythonWhitespace [c] ≠ []) (hPlain : '<' ≠ c ∧ '>' ≠ c) :
    SourceText :=
  ⟨[c], hBlank, by simpa using hPlain⟩

def first : SourceText := text 'a' (by decide) (by decide)

def second : SourceText := text 'b' (by decide) (by decide)

def workflow (ref : SourceText) : OAPendingWorkSnapshot := ⟨ref, ref, ref, ref, ref, ref⟩

def listed (refs : List SourceText) (hRefs : refs.Nodup) : OAPendingWorkSnapshotCollection where
  workflows := refs.map workflow
  returnedCount := (refs.map workflow).length
  authoritativeCount := (refs.map workflow).length
  counts := ⟨rfl, rfl⟩
  unique := by
    rw [map_map]
    exact (map_id' refs).symm ▸ hRefs

def subject : OASyncSubject := ⟨['u'], by decide⟩

def attempt (generation : Nat) (startedAt : Time) (hPos : 0 < generation) : OASyncTicket :=
  ⟨subject, .pending, generation, startedAt, hPos⟩

def drawn (ref : SourceText) : Option Str := some ref.val

def empty : State := ⟨fun _ _ => none, [], []⟩

/-- Two attempts begin, the second one publishes two workflows, a third begins. -/
def calls : List SyncCall :=
  [.begins .delivered subject .pending 10, .begins .lost subject .pending 20,
    .applies .delivered (attempt 2 20 (by decide)) [] (listed [first, second] (by decide)) 25
      drawn,
    .begins .delivered subject .pending 30]

def history : List State := Turn.inTurn (calls.map fun call => .call call.program) [empty]

theorem history_run : ∃ ps, SyncRun history ps := by
  refine PoolRun.inTurn ⟨fun _ _ => rfl, rfl, rfl⟩ fun turn hTurn => ?_
  obtain ⟨call, -, rfl⟩ := mem_map.mp hTurn
  exact fun _ => ⟨call, rfl⟩

def one : State := (empty.begin subject .pending 10).2

def two : State := (one.begin subject .pending 20).2

def three : State :=
  Prog.committed (fun s => (s.apply (attempt 2 20 (by decide)) []
    (listed [first, second] (by decide)) 25 drawn).mapError Failure.store) two

def four : State := (three.begin subject .pending 30).2

/-- The third attempt finds only the first workflow. -/
def third : Except StoreError (Outcome × State) :=
  four.apply (attempt 3 30 (by decide)) [] (listed [first] (by decide)) 35 drawn

def marks : Except StoreError (Outcome × State) → Option (List PendingState)
  | .ok (.applied, s) => some (s.observations.map (·.pendingState))
  | _ => none

theorem marks_some {r : Except StoreError (Outcome × State)} {ms : List PendingState}
    (hMarks : marks r = some ms) :
    ∃ s, r = .ok (.applied, s) ∧ s.observations.map (·.pendingState) = ms := by
  unfold marks at hMarks
  split at hMarks
  · rename_i s
    exact ⟨s, rfl, Option.some.inj hMarks⟩
  · cases hMarks

end Sample

open Sample

/-- In the sample history the first ticket is superseded and records nothing,
and the third attempt leaves one workflow current and the other unconfirmed. -/
theorem oa_sync_consistent_sample :
    (∀ code finishedAt, four.finishFailure (attempt 1 10 (by decide)) code finishedAt = four) ∧
    Valid four ∧ ∃ s', third = .ok (.applied, s') ∧
      s'.observations.map (·.pendingState) = [.current, .unconfirmed] ∧
      Reconciled s' subject.aiUserId [first] := by
  obtain ⟨ps, hRun⟩ := history_run
  obtain ⟨-, -, hInert, hReconciled, hValid⟩ := oa_sync_consistent hRun
  have hSince : [two, one, empty] <:+ [four, three, two, one, empty] :=
    ⟨[four, three], rfl⟩
  obtain ⟨-, hFinish⟩ := hInert (attempt 1 10 (by decide)) (attempt 2 20 (by decide))
    one [empty] two one [empty] _ _ rfl rfl ⟨rfl, rfl⟩
    suffix_rfl hSince suffix_rfl
  have hThird : marks third = some [.current, .unconfirmed] := by decide +kernel
  obtain ⟨s', hOk, hMarks⟩ := marks_some hThird
  exact ⟨hFinish, hValid _ mem_cons_self, s', hOk, hMarks,
    hReconciled _ mem_cons_self _ _ _ _ _ s' hOk⟩

end EternalAI.Sync
