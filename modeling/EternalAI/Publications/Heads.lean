import EternalAI.Publications.Service

/-!
# Browser publications — one head, one candidate, forward only

A row moves from prepared to active to inactive and its revision counts the moves. A
transition retires the head it replaces in the same step, so that an activation either
happens as a whole or not at all.

* `PubMove` — what a step can do to the table.
* `Sound` — the tables of a run.
* `publication_heads_kept` — the whole, for every interleaving.
-/

namespace EternalAI.Publications

open Lib List Safe
open Dispatch (Str)
open Leases (Owner)

variable {env : PubEnv} {s s' : State} {owner : Owner} {manifest : Manifest} {answers : Answers}

/-! ## What a step can do -/

def Row.content (row : Row) : Str × Str × Str × Str × Str × Option Str × Manifest :=
  (row.tenantId, row.publicationDigest, row.skillId, row.skillVersion, row.capabilityId,
    row.capabilityDigest, row.manifest)

inductive RowStep (row : Row) : Row → Prop
  | stays : RowStep row row
  | activates : row.state = .prepared → row.activationRevision = 0 →
      RowStep row (row.moved .active)
  | retires : row.state = .active → row.activationRevision = 1 →
      RowStep row (row.moved .inactive)

inductive PubMove (s : State) : State → Prop
  | idle : PubMove s s
  | prepared {row : Row} : row.state = .prepared → row.activationRevision = 0 →
      (∀ r ∈ s, r.key ≠ row.key ∧ r.version ≠ row.version) →
      (∀ r ∈ s, r.head = row.head → r.state ≠ .prepared) → PubMove s (s ++ [row])
  | moved {g : Row → Row} : (∀ row ∈ s, RowStep row (g row)) →
      State.singleHeads (s.map g) → PubMove s (s.map g)

def PubStep : List State → State → Prop
  | s :: _, s' => PubMove s s'
  | [], _ => False

/-! ## Preparations -/

variable {row : Row} {records : List Record} {previous : List Row} {skillId : Str}
  {operation : Operation} {grounds : Grounds}

variable {record : Record}

theorem record_ok (hOk : env.record row = .ok record) :
    record.manifest = row.manifest ∧ record.state = row.state ∧
      record.activationRevision = row.activationRevision ∧
      row.publicationDigest = row.manifest.digest ∧
      row.activationRevision = row.state.revision := by
  obtain ⟨⟨-, hDigest, -, -, -, -, hRevision⟩, hOk⟩ := ensure_bind_ok.mp hOk
  cases hOk
  exact ⟨rfl, rfl, rfl, hDigest, hRevision⟩

theorem rows_of_records {rows : List Row} (hOk : rows.mapM env.record = .ok records)
    (hAll : ∀ record ∈ records, record.state ≠ .prepared) :
    ∀ row ∈ rows, row.state ≠ .prepared := by
  intro row hRow
  obtain ⟨record, hRecord, hSame⟩ := mapM_ok hOk row hRow
  rw [← (record_ok hSame).2.1]
  exact hAll record hRecord

theorem already_none {new : List Record} (hOk : already new = .ok none) : new = [] := by
  cases new with
  | nil => rfl
  | cons record rest =>
    obtain ⟨-, hOk⟩ := ensure_bind_ok.mp hOk
    cases hOk

theorem mem_recordsOf :
    record ∈ recordsOf manifest records ↔ record ∈ records ∧ record.manifest = manifest := by
  simp [recordsOf]

theorem only_spec {p : Record → Bool} (hOnly : only p records = true) :
    ∃ record, records = [record] ∧ p record = true := by
  match records, hOnly with
  | [record], hp => exact ⟨record, rfl, hp⟩

/-- Where every expected manifest has a record and there are no more records than these,
every record is of an expected manifest. -/
theorem expected_of_length {history : List Manifest} (hNodup : history.Nodup)
    (hThere : ∀ expected ∈ history, ∃ r ∈ records, r.manifest = expected)
    (hLength : records.length = history.length) : ∀ r ∈ records, r.manifest ∈ history := by
  have hSub : history ⊆ records.map Record.manifest := by
    intro expected hMem
    obtain ⟨r, hr, hSame⟩ := hThere expected hMem
    exact mem_map.mpr ⟨r, hr, hSame⟩
  have hPerm : history.Perm (records.map Record.manifest) :=
    (subperm_of_subset hNodup hSub).perm_of_length_le (by rw [length_map, hLength])
  exact fun r hr => hPerm.mem_iff.mpr (mem_map_of_mem hr)

def Lineage.Distinct : Lineage → Prop
  | .after history => history.Nodup
  | .plain | .observe => True

theorem admitsRegistered_none (hOk : env.admitsRegistered manifest previous = .ok none) :
    ∀ row ∈ previous, row.state ≠ .prepared := by
  obtain ⟨records, hRecords, hOk⟩ := bind_ok.mp hOk
  cases hSame : recordsOf manifest records with
  | nil =>
    rw [hSame] at hOk
    obtain ⟨hFree, -⟩ := ensure_bind_ok.mp hOk
    exact rows_of_records hRecords fun record hRecord => (hFree record hRecord).1
  | cons same rest =>
    rw [hSame] at hOk
    obtain ⟨-, hOk⟩ := ensure_bind_ok.mp hOk
    cases hOk

theorem admitsFixture_none (hOk : env.admitsFixture manifest previous = .ok none) :
    ∀ row ∈ previous, row.state ≠ .prepared := by
  cases previous with
  | nil => exact fun row hRow => nomatch hRow
  | cons row rest =>
    obtain ⟨existing, -, hOk⟩ := bind_ok.mp hOk
    obtain ⟨-, hOk⟩ := ensure_bind_ok.mp hOk
    cases hOk

theorem admitsPlain_none (hOk : env.admitsPlain manifest previous = .ok none) :
    ∀ row ∈ previous, row.state ≠ .prepared := by
  unfold PubEnv.admitsPlain at hOk
  split at hOk
  · exact admitsRegistered_none hOk
  · exact admitsFixture_none hOk

variable {lineage : Lineage}

theorem admits_none (hDistinct : lineage.Distinct)
    (hOk : lineage.admits env manifest previous = .ok none) :
    ∀ row ∈ previous, row.state ≠ .prepared := by
  cases lineage with
  | observe =>
    obtain ⟨records, hRecords, hOk⟩ := bind_ok.mp hOk
    obtain ⟨⟨-, hInactive⟩, hOk⟩ := ensure_bind_ok.mp hOk
    have hNew := already_none hOk
    -- no record has this manifest, and the others were all found inactive
    refine rows_of_records hRecords fun record hRecord => ?_
    have hOther : record.manifest ≠ manifest := fun hSame =>
      ne_nil_of_mem (mem_recordsOf.mpr ⟨hRecord, hSame⟩) hNew
    rw [hInactive record hRecord hOther]
    decide
  | after history =>
    obtain ⟨records, hRecords, hOk⟩ := bind_ok.mp hOk
    obtain ⟨⟨hPrior, hLength, -⟩, hOk⟩ := ensure_bind_ok.mp hOk
    have hNew := already_none hOk
    rw [hNew, length_nil, Nat.add_zero] at hLength
    have hThere : ∀ expected ∈ history, ∃ r ∈ records, r.manifest = expected := by
      intro expected hMem
      obtain ⟨r, hr, -⟩ := only_spec (hPrior expected hMem)
      have hIn : r ∈ recordsOf expected records := hr ▸ mem_singleton_self r
      exact ⟨r, mem_recordsOf.mp hIn⟩
    -- as many records as manifests expected, and those distinct, so there is no further record
    have hAll := expected_of_length hDistinct hThere hLength
    refine rows_of_records hRecords fun record hRecord => ?_
    -- the record is the one that was found for its manifest
    obtain ⟨r, hr, hState⟩ := only_spec (hPrior _ (hAll record hRecord))
    have hIn : record ∈ recordsOf record.manifest records := mem_recordsOf.mpr ⟨hRecord, rfl⟩
    rw [hr, mem_singleton] at hIn
    rw [hIn, (of_decide_eq_true hState).1]
    decide
  | plain => exact admitsPlain_none hOk

theorem insert_ok (hOk : s.insert row = .ok s') :
    (∀ r ∈ s, r.key ≠ row.key ∧ r.version ≠ row.version) ∧ s' = s ++ [row] := by
  obtain ⟨hFresh, hOk⟩ := ensure_bind_ok.mp hOk
  cases hOk
  exact ⟨hFresh, rfl⟩

theorem prepare_move (hDistinct : lineage.Distinct) :
    Post (s.prepare env owner manifest lineage answers) fun r => PubMove s r.2 := by
  refine .bind fun _ _ => .bind fun _ _ => .ensure fun _ => .bind fun _ _ =>
    .bind fun found hFound => ?_
  cases found with
  | some record => exact .ret .idle
  | none =>
    refine .bind fun s₁ hInsert => .bind fun record _ => .ret ?_
    obtain ⟨hFresh, rfl⟩ := insert_ok hInsert
    refine .prepared rfl rfl hFresh fun r hr hHead => ?_
    exact admits_none hDistinct hFound r (mem_filter.mpr ⟨hr, decide_eq_true hHead⟩)

/-! ## Transitions -/

/-- What an update of one publication leaves of a row. -/
def Row.movedIf (key : Str × Str) (before after : PubState) (revision : Nat) (row : Row) : Row :=
  if row.key = key ∧ row.state = before ∧ row.activationRevision = revision then row.moved after
  else row

theorem move_eq (s : State) (key : Str × Str) (before after : PubState) (revision : Nat) :
    s.move key before after revision = s.map (Row.movedIf key before after revision) := rfl

theorem movedIf_retires (key : Str × Str) (row : Row) :
    RowStep row (row.movedIf key .active .inactive 1) := by
  unfold Row.movedIf
  split
  · rename_i hHit
    exact .retires hHit.2.1 hHit.2.2
  · exact .stays

theorem movedIf_step (key : Str × Str) (operation : Operation) (row : Row) :
    RowStep row (row.movedIf key operation.before operation.after operation.before.revision) := by
  cases operation with
  | deactivate => exact movedIf_retires key row
  | activate =>
    unfold Row.movedIf
    split
    · rename_i hHit
      exact .activates hHit.2.1 hHit.2.2
    · exact .stays

theorem movedIf_after_retire (old key : Str × Str) (row : Row) :
    RowStep row ((row.movedIf old .active .inactive 1).movedIf key .prepared .active 0) := by
  by_cases hOld : row.key = old ∧ row.state = .active ∧ row.activationRevision = 1
  · -- it is inactive now, so the activation that follows leaves it alone
    have hRetired : row.movedIf old .active .inactive 1 = row.moved .inactive := if_pos hOld
    rw [hRetired, Row.movedIf, if_neg fun hHit => nomatch hHit.2.1]
    exact .retires hOld.2.1 hOld.2.2
  · have hSame : row.movedIf old .active .inactive 1 = row := if_neg hOld
    rw [hSame]
    exact movedIf_step key .activate row

variable {expectedActive : Option Str}

/-- Before its own update, a transition has retired at most one head, and only to
replace it. -/
theorem clear_ok :
    Post (s.clear env owner skillId record operation grounds expectedActive answers) fun s' =>
      s' = s ∨ operation = .activate ∧ ∃ key, s' = s.move key .active .inactive 1 := by
  cases operation with
  | deactivate => exact .ret (.inl rfl)
  | activate =>
    refine .bind fun _ _ => ?_
    split
    · refine .ensure fun _ => .ensure fun _ => ?_
      cases s.active owner.tenantId skillId with
      | none => exact .ret (.inl rfl)
      -- the head that is expected is retired before the candidate takes its place
      | some row => exact .bind fun previous _ => .bind fun _ _ => .ret (.inr ⟨rfl, _, rfl⟩)
    · exact .ret (.inl rfl)

variable {digest : Str} {expectedRevision : Nat}

/-- What a committed transition has done: the head that was retired, the own update, and
the row that has moved. -/
theorem transition_ok :
    Post (s.transition env owner skillId digest expectedRevision operation grounds expectedActive
      answers) fun r =>
    ∃ s₁, (s₁ = s ∨ operation = .activate ∧ ∃ key, s₁ = s.move key .active .inactive 1) ∧
      r.2 = s₁.move (owner.tenantId, digest) operation.before operation.after
        operation.before.revision ∧ r.2.singleHeads ∧
      ∃ row ∈ r.2, row.key = (owner.tenantId, digest) ∧ row.state = operation.after := by
  unfold State.transition
  simp only
  cases lookup Row.key (owner.tenantId, digest) s with
  | none => exact .fail
  | some row =>
    refine .bind fun record hRecord => .ensure fun hReady => .bind fun _ _ => .bind fun _ _ =>
      .bind fun s₁ hClear => ?_
    obtain ⟨-, hState, hRevision⟩ := hReady
    obtain ⟨-, hSame, hSameRevision, -, hLawful⟩ := record_ok hRecord
    -- a row is read back only with the revision of its state
    have hExpected : expectedRevision = operation.before.revision := by
      rw [← hRevision, hSameRevision, hLawful, ← hSame, hState]
    subst hExpected
    cases hAgain : lookup Row.key (owner.tenantId, digest) s₁ with
    | none => exact .fail
    | some current =>
      refine .ensure fun hCurrent => .ensure fun hHeads => .bind fun updated _ => .ret ?_
      have hKey : current.key = (owner.tenantId, digest) := lookup_key hAgain
      refine ⟨s₁, clear_ok s₁ hClear, rfl, hHeads, current.moved operation.after, ?_, hKey, rfl⟩
      refine mem_map.mpr ⟨current, lookup_mem hAgain, ?_⟩
      exact if_pos ⟨lookup_key hAgain, hCurrent⟩

theorem transition_move :
    Post (s.transition env owner skillId digest expectedRevision operation grounds expectedActive
      answers) fun r => PubMove s r.2 := by
  intro r hOk
  obtain ⟨s₁, hClear, hMove, hHeads, -⟩ := transition_ok r hOk
  rcases hClear with rfl | ⟨rfl, key, rfl⟩
  · rw [hMove, move_eq] at hHeads ⊢
    exact .moved (fun row _ => movedIf_step _ operation row) hHeads
  · rw [move_eq, move_eq, map_map] at hMove
    rw [hMove] at hHeads ⊢
    exact .moved (fun row _ => movedIf_after_retire key _ row) hHeads

/-! ## Interleavings -/

theorem Fixed.distinct (fixed : Fixed) : [fixed.query, fixed.diagnostic, fixed.visible].Nodup := by
  have hVersions : ([fixed.query, fixed.diagnostic, fixed.visible].map
      fun manifest => manifest.skill.version).Nodup := by
    simp only [map_cons, map_nil, fixed.query_version, fixed.diagnostic_version,
      fixed.visible_version]
    decide
  exact hVersions.of_map

abbrev Acts {α : Type} (p : Prog State PubError α) (h : List State) : Prop :=
  Safe Unpublished PubStep (fun _ _ => True) p h

variable {ack : Ack} {h : List State}

theorem commit_acts {f : State → Except PubError (Record × State)}
    (hf : ∀ s, Post (f s) fun r => PubMove s r.2) : Acts (commit ack f) h :=
  Safe.transact (fun _ _ => .idle) fun s _ r s' hOk => hf s (r, s') hOk

theorem prepareWith_acts (hDistinct : lineage.Distinct) :
    Acts (prepareWith env owner manifest answers ack lineage) h := by
  refine ofExcept_seq fun checked _ => ofExcept_seq fun _ _ => ?_
  exact commit_acts fun _ => prepare_move hDistinct

theorem prepareCall_acts (call : PrepareCall) : Acts (call.program env answers ack) h := by
  have hAll := env.fixed.distinct
  cases call with
  | plain => exact prepareWith_acts trivial
  | diagnosticSecond =>
    refine ofExcept_seq fun _ _ => prepareWith_acts ?_
    exact nodup_singleton _
  | visibleComplete =>
    refine ofExcept_seq fun _ _ => prepareWith_acts ?_
    exact hAll.sublist (sublist_append_left [env.fixed.query, env.fixed.diagnostic] _)
  | observeOnly owner manifest attemptId =>
    refine ofExcept_seq fun _ _ => ofExcept_seq fun _ _ => prepareWith_acts ?_
    cases attemptId with
    | none => exact hAll
    | some => exact trivial

variable {expectedRevision : Int}

theorem transitionWith_acts :
    Acts (transitionWith env owner answers ack skillId digest expectedRevision operation grounds
      expectedActive) h := by
  refine require_seq fun _ => require_seq fun _ => ofExcept_seq fun _ _ => ?_
  exact commit_acts fun _ => transition_move

theorem activateCall_acts (call : ActivateCall) : Acts (call.program env answers ack) h := by
  cases call with
  | plain => exact transitionWith_acts
  | reviewed =>
    refine ofExcept_seq fun checked _ => require_seq fun _ => require_seq fun _ =>
      require_seq fun _ => ?_
    exact transitionWith_acts
  | initial =>
    refine ofExcept_seq fun checked _ => require_seq fun _ => require_seq fun _ => ?_
    exact transitionWith_acts
  | fixedInitial =>
    refine ofExcept_seq fun checked _ => require_seq fun _ => ?_
    exact transitionWith_acts

theorem PubRun.steps {ps : Procs State PubError} (hRun : PubRun env h ps) :
    Run Unpublished PubStep h := by
  refine (PoolRun.refines (fun _ _ _ hNever => hNever.elim) (fun _ _ _ => PubMove.idle)
    (fun _ p hp h _ => ?_) hRun).1
  obtain ⟨call, answers, ack, rfl⟩ := hp
  refine Safe.ended ?_
  cases call with
  | prepares call => exact prepareCall_acts call
  | activates call => exact activateCall_acts call
  | deactivates => exact transitionWith_acts

/-! ## Invariants -/

structure Sound (s : State) : Prop where
  keys : (s.map Row.key).Nodup
  versions : (s.map Row.version).Nodup
  revision : ∀ row ∈ s, row.activationRevision = row.state.revision
  heads : s.singleHeads
  candidates : ∀ row ∈ s, ∀ row' ∈ s, row.state = .prepared → row'.state = .prepared →
    row.head = row'.head → row.key = row'.key

theorem empty_sound : Sound [] := by
  constructor <;> simp [State.singleHeads]

variable {row' : Row}

theorem RowStep.content (hStep : RowStep row row') : row'.content = row.content := by
  cases hStep <;> rfl

theorem of_content (hContent : row'.content = row.content) :
    row'.key = row.key ∧ row'.head = row.head ∧ row'.version = row.version := by
  simp only [Row.content, Prod.mk.injEq] at hContent
  obtain ⟨hTenant, hDigest, hSkill, hVersion, -⟩ := hContent
  refine ⟨?_, ?_, ?_⟩
  · rw [Row.key, Row.key, hTenant, hDigest]
  · rw [Row.head, Row.head, hTenant, hSkill]
  · rw [Row.version, Row.version, hTenant, hSkill, hVersion]

theorem RowStep.revision (hStep : RowStep row row')
    (hLawful : row.activationRevision = row.state.revision) :
    row'.activationRevision = row'.state.revision ∧
      row.activationRevision ≤ row'.activationRevision := by
  cases hStep with
  | stays => exact ⟨hLawful, Nat.le_refl _⟩
  | activates _ hCount | retires _ hCount => exact ⟨congrArg (· + 1) hCount, Nat.le_succ _⟩

theorem RowStep.prepared (hStep : RowStep row row') (hPrepared : row'.state = .prepared) :
    row' = row := by
  cases hStep with
  | stays => rfl
  | activates | retires => cases hPrepared

variable {β : Type} {f : Row → β}

theorem pair_append {P : Row → Row → Prop} (hOld : ∀ r ∈ s, ∀ r' ∈ s, P r r')
    (hLeft : ∀ r ∈ s, P r row) (hRight : ∀ r ∈ s, P row r) (hSelf : P row row) :
    ∀ r ∈ s ++ [row], ∀ r' ∈ s ++ [row], P r r' := by
  intro r hr r' hr'
  rw [mem_append, mem_singleton] at hr hr'
  rcases hr with hr | rfl
  · rcases hr' with hr' | rfl
    · exact hOld r hr r' hr'
    · exact hLeft r hr
  · rcases hr' with hr' | rfl
    · exact hRight r' hr'
    · exact hSelf

theorem prepared_sound (hSound : Sound s) (hState : row.state = .prepared)
    (hCount : row.activationRevision = 0)
    (hFresh : ∀ r ∈ s, r.key ≠ row.key ∧ r.version ≠ row.version)
    (hFree : ∀ r ∈ s, r.head = row.head → r.state ≠ .prepared) : Sound (s ++ [row]) where
  keys := nodup_map_append_new hSound.keys fun r hr => (hFresh r hr).1
  versions := nodup_map_append_new hSound.versions fun r hr => (hFresh r hr).2
  revision := by
    intro r hr
    rw [mem_append, mem_singleton] at hr
    rcases hr with hr | rfl
    · exact hSound.revision r hr
    · rw [hCount, hState]
      rfl
  heads := by
    have hNot : row.state ≠ .active := by
      rw [hState]
      decide
    refine pair_append hSound.heads ?_ ?_ fun _ _ _ => rfl
    · exact fun r _ _ hActive => absurd hActive hNot
    · exact fun r _ hActive => absurd hActive hNot
  candidates := by
    refine pair_append hSound.candidates ?_ ?_ fun _ _ _ => rfl
    · exact fun r hr hPrepared _ hHead => absurd hPrepared (hFree r hr hHead)
    · exact fun r hr _ hPrepared hHead => absurd hPrepared (hFree r hr hHead.symm)

variable {g : Row → Row}

theorem map_kept (hf : ∀ row row' : Row, row'.content = row.content → f row' = f row)
    (hRows : ∀ row ∈ s, RowStep row (g row)) : (s.map g).map f = s.map f := by
  rw [map_map]
  exact map_congr_left fun row hRow => hf _ _ (hRows row hRow).content

theorem moved_sound (hSound : Sound s) (hRows : ∀ row ∈ s, RowStep row (g row))
    (hHeads : State.singleHeads (s.map g)) : Sound (s.map g) where
  keys := by
    rw [map_kept (fun _ _ hSame => (of_content hSame).1) hRows]
    exact hSound.keys
  versions := by
    rw [map_kept (fun _ _ hSame => (of_content hSame).2.2) hRows]
    exact hSound.versions
  revision := by
    intro row' hRow'
    obtain ⟨row, hRow, rfl⟩ := mem_map.mp hRow'
    exact ((hRows row hRow).revision (hSound.revision row hRow)).1
  heads := hHeads
  candidates := by
    intro row₁ hRow₁ row₂ hRow₂ hPrepared₁ hPrepared₂ hHead
    obtain ⟨old₁, hOld₁, rfl⟩ := mem_map.mp hRow₁
    obtain ⟨old₂, hOld₂, rfl⟩ := mem_map.mp hRow₂
    -- nothing becomes prepared, so both were candidates before
    have hSame₁ := (hRows old₁ hOld₁).prepared hPrepared₁
    have hSame₂ := (hRows old₂ hOld₂).prepared hPrepared₂
    rw [hSame₁] at hPrepared₁ hHead ⊢
    rw [hSame₂] at hPrepared₂ hHead ⊢
    exact hSound.candidates old₁ hOld₁ old₂ hOld₂ hPrepared₁ hPrepared₂ hHead

theorem move_sound (hSound : Sound s) (hMove : PubMove s s') : Sound s' := by
  cases hMove with
  | idle => exact hSound
  | prepared hState hCount hFresh hFree => exact prepared_sound hSound hState hCount hFresh hFree
  | moved hRows hHeads => exact moved_sound hSound hRows hHeads

/-- Every publication is still there, as it was and not behind. -/
def Forward (s s' : State) : Prop :=
  ∀ row ∈ s, ∃ row' ∈ s', row'.content = row.content ∧
    row.activationRevision ≤ row'.activationRevision

theorem Forward.refl (s : State) : Forward s s := fun row hRow => ⟨row, hRow, rfl, Nat.le_refl _⟩

theorem Forward.trans {s'' : State} (h₁ : Forward s s') (h₂ : Forward s' s'') : Forward s s'' := by
  intro row hRow
  obtain ⟨row', hRow', hSame, hLe⟩ := h₁ row hRow
  obtain ⟨row'', hRow'', hSame', hLe'⟩ := h₂ row' hRow'
  exact ⟨row'', hRow'', hSame'.trans hSame, Nat.le_trans hLe hLe'⟩

theorem move_forward (hSound : Sound s) (hMove : PubMove s s') : Forward s s' := by
  intro row hRow
  cases hMove with
  | idle => exact ⟨row, hRow, rfl, Nat.le_refl _⟩
  | prepared => exact ⟨row, mem_append_left _ hRow, rfl, Nat.le_refl _⟩
  | moved hRows =>
    have hStep := hRows row hRow
    exact ⟨_, mem_map_of_mem hRow, hStep.content, (hStep.revision (hSound.revision row hRow)).2⟩

theorem run_kept {t : List State} (hRun : Run Unpublished PubStep (s :: t)) :
    ∀ x ∈ s :: t, Sound x ∧ Forward x s := by
  refine hRun.mem_inv_rel (by rintro _ rfl; exact empty_sound) Forward.refl Forward.trans ?_
  intro x u y hPast hMove
  have hSound := (hPast x mem_cons_self).1
  exact ⟨move_sound hSound hMove, move_forward hSound hMove⟩

/-! ## Activations that fail -/

def TakesEffect (target : Str × Str) (_ s' : State) : Prop :=
  ∃ row ∈ s', row.key = target ∧ row.state = .active

theorem transitionWith_tries :
    Tries (TakesEffect (owner.tenantId, digest)) (ack ≠ .lost)
      (transitionWith env owner answers ack skillId digest expectedRevision .activate grounds
        expectedActive) := by
  refine Tries.require_seq fun _ => Tries.require_seq fun _ => Tries.ofExcept_seq fun _ _ => ?_
  refine Tries.transact fun s r s' hOk => ?_
  obtain ⟨_, -, -, -, hRow⟩ := transition_ok (r, s') hOk
  exact hRow

theorem manifest_ok {checked : Manifest} (hOk : env.manifest manifest = .ok checked) :
    checked = manifest := by
  obtain ⟨-, hOk⟩ := ensure_bind_ok.mp hOk
  cases hOk
  rfl

theorem activateCall_tries (call : ActivateCall) :
    Tries (TakesEffect call.target) (ack ≠ .lost) (call.program env answers ack) := by
  cases call with
  | plain => exact transitionWith_tries
  | reviewed =>
    refine Tries.ofExcept_seq fun checked hChecked => Tries.require_seq fun _ =>
      Tries.require_seq fun _ => Tries.require_seq fun _ => ?_
    rw [manifest_ok hChecked]
    exact transitionWith_tries
  | initial =>
    refine Tries.ofExcept_seq fun checked hChecked => Tries.require_seq fun _ =>
      Tries.require_seq fun _ => ?_
    rw [manifest_ok hChecked]
    exact transitionWith_tries
  | fixedInitial =>
    refine Tries.ofExcept_seq fun checked hChecked => Tries.require_seq fun _ => ?_
    rw [manifest_ok hChecked]
    exact transitionWith_tries

/-! ## The whole -/

def State.inState (s : State) (tenantId skillId : Str) (state : PubState) : List Row :=
  s.filter fun row => row.head = (tenantId, skillId) ∧ row.state = state

/-- What holds of the history of all publications, newest table first. -/
structure HeadsKept (env : PubEnv) (h : List State) : Prop where
  /-- At most one publication of a skill is active. -/
  active : ∀ s ∈ h, ∀ tenantId skillId, (s.inState tenantId skillId .active).length ≤ 1
  /-- The revision says which state the publication is in. -/
  revision : ∀ s ∈ h, ∀ row ∈ s, (row.activationRevision = 0 ↔ row.state = .prepared) ∧
    (row.activationRevision = 1 ↔ row.state = .active) ∧
    (row.activationRevision = 2 ↔ row.state = .inactive)
  /-- A publication stays, its content too, and its revision never falls. -/
  forward : ∀ s' t, s' :: t <:+ h → ∀ s ∈ s' :: t, Forward s s'
  /-- At most one candidate of a skill is prepared. -/
  candidate : ∀ s ∈ h, ∀ tenantId skillId, (s.inState tenantId skillId .prepared).length ≤ 1
  /-- No version of a skill comes twice. -/
  versions : ∀ s ∈ h, (s.map Row.version).Nodup
  /-- An activation that fails leaves every publication as it was. Only where the answer to
  its commit is lost may it raise although it has taken effect. -/
  failed : ∀ s ∈ h, ∀ (call : ActivateCall) (answers : Answers) (ack : Ack) (e : PubError) s',
    (call.program env answers ack).run s = (.error e, s') →
      s' = s ∨ ack = .lost ∧ TakesEffect call.target s s'

/-- Rows of one state, of which all have one key, are at most one. -/
theorem inState_length (hSound : Sound s) {tenantId : Str} {state : PubState}
    (hSame : ∀ row ∈ s, ∀ row' ∈ s, row.state = state → row'.state = state →
      row.head = row'.head → row.key = row'.key) :
    (s.inState tenantId skillId state).length ≤ 1 := by
  rcases hNil : s.inState tenantId skillId state with _ | ⟨first, rest⟩
  · exact Nat.zero_le 1
  rw [← hNil]
  have hMem : ∀ row ∈ s.inState tenantId skillId state,
      row ∈ s ∧ row.head = (tenantId, skillId) ∧ row.state = state := fun row hRow =>
    ⟨(mem_filter.mp hRow).1, of_decide_eq_true (mem_filter.mp hRow).2⟩
  obtain ⟨hFirst, hHead, hState⟩ := hMem first (hNil ▸ mem_cons_self)
  have hSub : (s.inState tenantId skillId state).Sublist s := filter_sublist
  refine length_le_one_of_same (hSound.keys.sublist (hSub.map Row.key)) (b := first.key) ?_
  intro row hRow
  obtain ⟨hIn, hHead', hState'⟩ := hMem row hRow
  exact hSame row hIn first hFirst hState' hState (hHead'.trans hHead.symm)

theorem revision_iff (hSound : Sound s) (hRow : row ∈ s) (state : PubState) :
    row.activationRevision = state.revision ↔ row.state = state := by
  rw [hSound.revision row hRow]
  constructor
  · intro hEq
    cases hRowState : row.state <;> cases state <;> simp_all [PubState.revision]
  · exact fun hEq => hEq ▸ rfl

/--
**One head, forward only.** In every interleaving of preparations, activations and
deactivations of whatever tenants and skills, with whatever the authority, the review and
the registry answer: a skill has at most one active publication and at most one prepared
candidate, and never a version twice; the revision of a publication is 0, 1 or 2 exactly
when it is prepared, active or inactive, and never falls; and an activation that fails
leaves the head that was active.
-/
theorem publication_heads_kept {ps : Procs State PubError} (hRun : PubRun env h ps) :
    HeadsKept env h := by
  have hSteps := hRun.steps
  have hPast : ∀ s t, s :: t <:+ h → ∀ x ∈ s :: t, Sound x ∧ Forward x s := fun s t hSuf =>
    run_kept (hSteps.of_suffix hSuf)
  have hSound : ∀ s ∈ h, Sound s := by
    intro s hs
    obtain ⟨before, after, rfl⟩ := append_of_mem hs
    exact (hPast s after (suffix_append _ _) s mem_cons_self).1
  constructor
  case active => exact fun s hs _ _ => inState_length (hSound s hs) (hSound s hs).heads
  case revision =>
    intro s hs row hRow
    have hIff := revision_iff (hSound s hs) hRow
    exact ⟨hIff .prepared, hIff .active, hIff .inactive⟩
  case forward => exact fun s' t hSuf s hs => (hPast s' t hSuf s hs).2
  case candidate => exact fun s hs _ _ => inState_length (hSound s hs) (hSound s hs).candidates
  case versions => exact fun s hs => (hSound s hs).versions
  case failed =>
    intro s _ call answers ack e s' hFails
    rcases activateCall_tries call s _ s' hFails with ⟨hSame, -⟩ | ⟨hEffect, ⟨a, hOk⟩ | hLost⟩
    · exact .inl hSame
    · cases hOk
    · -- it has taken effect and raises all the same: the answer to the commit was lost
      exact .inr ⟨not_not.mp hLost, hEffect⟩

/-! ## A history -/

namespace Sample

def made (kind : SourceKind) (version : Str) (digest : Char) : Manifest where
  digest := List.replicate 64 digest
  skill := ⟨['k'], version, ['d'], ['s'], []⟩
  site := ⟨version, ['s'], []⟩
  verifier := ['v']
  output := ['o']
  capabilitySnapshotJson := ['j']
  capabilityBindings := [⟨['b'], ['c']⟩]
  sourceKind := kind
  effect := .readOnly
  executionMode := .browserAsync
  rollbackSourceDigest := none

def fixture (version : Str) : Manifest := made .registeredSyntheticFixture version 'f'

def plainEnv : PubEnv where
  valid := fun _ => true
  capabilityId := fun _ => ['q']
  fixed := {
    tenant := ['f']
    query := fixture "v1".toList
    diagnostic := fixture "v2_diagnostic_2".toList
    visible := fixture "v3_visible_complete".toList
    observe := fun _ => fixture "v4_observe_only".toList
    query_version := rfl
    diagnostic_version := rfl
    visible_version := rfl }

def publisher : Owner := ⟨['t'], ['u'], ['s']⟩

/-- Everything is granted, and the capability is the recorded one. -/
def granted : Answers where
  permitted := fun _ => true
  source := true
  capability := .inSession (.ok (some ⟨true, .query, ['j'], [⟨['b'], ['c']⟩]⟩))
  fixedInitial := fun _ => true
  review := some (some true)

def first : Manifest := made .registeredSite ['1'] 'a'

def second : Manifest := made .registeredSite ['2'] 'b'

def call (answers : Answers) (c : PubCall) : Turn State PubError :=
  .call ((c.program plainEnv answers .delivered).discard)

/-- A first version becomes the head; a second one is refused by its review, and then
takes its place. -/
def turns : List (Turn State PubError) :=
  [call granted (.prepares (.plain publisher first)),
    call granted (.activates (.initial publisher first ['x'] ['y'] ['z'])),
    call granted (.prepares (.plain publisher second)),
    call { granted with review := some (some false) }
      (.activates (.reviewed publisher second (some first.digest))),
    call granted (.activates (.reviewed publisher second (some first.digest)))]

def history : List State := Turn.inTurn turns [[]]

theorem history_run : ∃ ps, PubRun plainEnv history ps := by
  have hStart : Unpublished [] := rfl
  refine PoolRun.inTurn hStart ?_
  simp only [turns, forall_mem_cons]
  refine ⟨?_, ?_, ?_, ?_, ?_, nofun⟩ <;> exact fun _ => ⟨_, _, _, rfl⟩

end Sample

theorem publication_heads_kept_sample :
    HeadsKept Sample.plainEnv Sample.history ∧
      Sample.history.map (fun s => s.map fun row => (row.skillVersion, row.state)) =
        [[(['1'], .inactive), (['2'], .active)],
          [(['1'], .active), (['2'], .prepared)],
          [(['1'], .active), (['2'], .prepared)],
          [(['1'], .active)],
          [(['1'], .prepared)],
          []] := by
  obtain ⟨ps, hRun⟩ := Sample.history_run
  exact ⟨publication_heads_kept hRun, by decide +kernel⟩

end EternalAI.Publications
