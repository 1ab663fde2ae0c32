import EternalAI.Dispatch.Command
import EternalAI.Lib.Table

/-!
# Dispatched tasks — what the writes do to the relation table

One equation for each operation on the handling relations of a task: the table
it leaves behind as a map over the table before, and the rows it writes.

A transaction works on copies of the relations that hide what the actor may
not see. `Copies relations table` says that they are the current rows of the
table up to submission and review, which is all that the operations below
depend on.

* `result_updateRelation`, `result_supersedeRelations`, `result_insertRelations`,
  `result_invalidateSubmissions` — the tables.
* `Covered` — every row of the new table was there before, or was written.
-/

namespace EternalAI.Dispatch

open Lib List Script

variable {r x : Relation} {table table' relations : List Relation} {now : Time}

/-! ## Copies -/

/-- The relations are the current ones, up to submission and review. -/
def Copies (relations table : List Relation) : Prop :=
  (relations.map Relation.cleared).Perm ((current table).map Relation.cleared)

theorem mem_current : x ∈ current table ↔ x ∈ table ∧ x.supersededAt = none := by
  simp [current]

theorem projected_cleared (scope : Scope) (tick : Tick) (x : Relation) :
    (x.projected scope tick).cleared = x.cleared := by
  unfold Relation.projected
  split <;> rfl

theorem copies_loadRelations (scope : Scope) (tick : Tick) (table : List Relation) :
    Copies (loadRelations scope tick table) table := by
  have hSort := perm_insertionSort (fun a b : Relation => a.before b = true)
    ((current table).map (·.projected scope tick))
  have hMap := hSort.map Relation.cleared
  rwa [map_map, map_congr_left
    (f := Relation.cleared ∘ fun x : Relation => x.projected scope tick)
    fun x _ => projected_cleared scope tick x] at hMap

/-- What is left alone when submission and review are cleared. -/
structure SameCore (a b : Relation) : Prop where
  cleared : a.cleared = b.cleared

variable {β : Type}

namespace SameCore

variable {a b : Relation} (h : SameCore a b)

include h

theorem congr (f : Relation → β) (hf : ∀ r, f r.cleared = f r) : f a = f b := by
  rw [← hf a, h.cleared, hf b]

theorem relationId : a.relationId = b.relationId := h.congr _ fun _ => rfl

theorem role : a.role = b.role := h.congr _ fun _ => rfl

theorem status : a.status = b.status := h.congr _ fun _ => rfl

theorem supersededAt : a.supersededAt = b.supersededAt := h.congr _ fun _ => rfl

end SameCore

section

variable (hCopies : Copies relations table)

include hCopies

theorem Copies.row (hr : r ∈ relations) : ∃ x ∈ current table, SameCore r x := by
  obtain ⟨x, hx, hEq⟩ := mem_map.mp (hCopies.mem_iff.mp (mem_map_of_mem hr))
  exact ⟨x, hx, ⟨hEq.symm⟩⟩

theorem Copies.copy (hx : x ∈ current table) : ∃ r ∈ relations, SameCore r x := by
  obtain ⟨r, hr, hEq⟩ := mem_map.mp (hCopies.mem_iff.mpr (mem_map_of_mem hx))
  exact ⟨r, hr, ⟨hEq⟩⟩

/-- What holds of the copies holds of the rows, as long as it depends on the
core only. -/
theorem Copies.forall {P : Relation → Prop} (hP : ∀ a b, SameCore a b → P a → P b)
    (hAll : ∀ r ∈ relations, P r) : ∀ x ∈ current table, P x := by
  intro x hx
  obtain ⟨r, hr, hCore⟩ := hCopies.copy hx
  exact hP r x hCore (hAll r hr)

theorem Copies.map_core (f : Relation → β) (hf : ∀ r, f r.cleared = f r) :
    (relations.map f).Perm ((current table).map f) := by
  have hMap := List.Perm.map f hCopies
  rw [map_map, map_map] at hMap
  rwa [map_congr_left (f := f ∘ Relation.cleared) fun r _ => hf r,
    map_congr_left (f := f ∘ Relation.cleared) fun r _ => hf r] at hMap

end

/-- The ids of a table are a key. -/
def Keyed (table : List Relation) : Prop := (table.map Relation.relationId).Nodup

theorem Keyed.eq (hKeyed : Keyed table) (hr : r ∈ table) (hx : x ∈ table)
    (hId : r.relationId = x.relationId) : r = x :=
  inj_on_of_nodup_map hKeyed hr hx hId

theorem Keyed.current (hKeyed : Keyed table) : Keyed (current table) :=
  hKeyed.sublist (filter_sublist.map _)

theorem Keyed.insert (hKeyed : Keyed table) (hFree : ∀ x ∈ table, x.relationId ≠ r.relationId) :
    Keyed (table ++ [r]) :=
  nodup_map_append_new hKeyed hFree

theorem Copies.core_of_id (hCopies : Copies relations table) (hKeyed : Keyed table)
    (hr : r ∈ relations) (hx : x ∈ table) (hId : x.relationId = r.relationId) : SameCore r x := by
  obtain ⟨y, hy, hCore⟩ := hCopies.row hr
  have hEq : x = y := hKeyed.eq hx (mem_current.mp hy).1 (hId.trans hCore.relationId)
  exact hEq ▸ hCore

theorem Copies.keyed (hCopies : Copies relations table) (hKeyed : Keyed table) :
    Keyed relations :=
  ((hCopies.map_core Relation.relationId fun _ => rfl).nodup_iff).mpr hKeyed.current

/-! ## The tables after the operations -/

theorem result_insertRelation :
    (insertRelation r table).result = .ok table' ↔
      (∀ x ∈ table, x.relationId ≠ r.relationId) ∧ table' = table ++ [r] := by
  unfold insertRelation
  rw [result_bind_ok]
  constructor
  · rintro ⟨_, hReq, hRest⟩
    exact ⟨result_require_ok.mp hReq, (Except.ok.inj hRest).symm⟩
  · rintro ⟨hFree, rfl⟩
    exact ⟨(), result_require_ok.mpr hFree, rfl⟩

def updated (r : Relation) (table : List Relation) : List Relation :=
  table.map fun x => if x.relationId = r.relationId then x.overwrite r else x

theorem result_updateRelation : (updateRelation r table).result = .ok (updated r table) := by
  unfold updateRelation updated
  rw [result_updateWhere]
  simp

/-- The table after a supersession of all relations with the given ids. -/
def supersededIn (ids : List Uuid) (now : Time) (table : List Relation) : List Relation :=
  table.map fun x => if x.relationId ∈ ids then x.superseded now else x

theorem result_supersedeRelation :
    (supersedeRelation r now table).result = .ok (supersededIn [r.relationId] now table) := by
  unfold supersedeRelation supersededIn
  rw [result_updateWhere]
  simp

theorem result_supersedeRelations (rs : List Relation) :
    (supersedeRelations rs now table).result =
      .ok (supersededIn (rs.map Relation.relationId) now table) := by
  unfold supersedeRelations supersedeRelation supersededIn
  rw [result_updates]
  refine congrArg _ (map_congr_left fun x hx => ?_)
  clear hx
  induction rs generalizing x with
  | nil => rfl
  | cons r rs ih =>
    rw [foldl_cons, ih]
    by_cases hId : x.relationId = r.relationId <;> simp [hId, Relation.superseded]

theorem result_insertRelations {rs : List Relation} :
    (insertRelations rs table).result = .ok table' →
      table' = table ++ rs ∧ (Keyed table → Keyed table') := by
  induction rs generalizing table with
  | nil =>
    intro hRes
    cases hRes
    exact ⟨(append_nil _).symm, id⟩
  | cons r rs ih =>
    intro hRes
    obtain ⟨mid, hIns, hRest⟩ := result_bind_ok.mp
      (show (insertRelation r table >>= _).result = _ from hRes)
    obtain ⟨hFree, rfl⟩ := result_insertRelation.mp hIns
    obtain ⟨rfl, hKeyed⟩ := ih hRest
    exact ⟨by simp, fun hTable => hKeyed (hTable.insert hFree)⟩

def Relation.taken (now : Time) (x : Relation) : Relation :=
  if x.status.handedIn then x.invalidated now else x

/-- The table after all submissions of current relations were taken back. -/
def takenBack (now : Time) (table : List Relation) : List Relation :=
  table.map fun x => if x.supersededAt.isNone then x.taken now else x

theorem SameCore.overwrite_invalidated (now : Time) (hCore : SameCore r x) :
    x.overwrite (r.invalidated now) = x.invalidated now := by
  have h : ({ r.cleared with
      status := if r.cleared.acceptedAt.isSome then .inProgress else .assigned
      updatedAt := now } : Relation) =
    { x.cleared with
      status := if x.cleared.acceptedAt.isSome then .inProgress else .assigned
      updatedAt := now } := by
    rw [hCore.cleared]
  have hInv : r.invalidated now = x.invalidated now := h
  rw [hInv]
  rfl

theorem Copies.mem_handedIn (hCopies : Copies relations table) (hKeyed : Keyed table)
    (hx : x ∈ table) :
    x.relationId ∈ (relations.filter (·.status.handedIn)).map Relation.relationId ↔
      x ∈ current table ∧ x.status.handedIn = true := by
  constructor
  · intro hMem
    obtain ⟨r, hr, hId⟩ := mem_map.mp hMem
    obtain ⟨hr, hIn⟩ := mem_filter.mp hr
    obtain ⟨y, hy, hCore⟩ := hCopies.row hr
    obtain rfl := hKeyed.eq hx (mem_current.mp hy).1 (hId.symm.trans hCore.relationId)
    exact ⟨hy, hCore.status ▸ hIn⟩
  · rintro ⟨hCur, hIn⟩
    obtain ⟨r, hr, hCore⟩ := hCopies.copy hCur
    exact mem_map.mpr ⟨r, mem_filter.mpr ⟨hr, hCore.status ▸ hIn⟩, hCore.relationId⟩

/-- Invalidating some copies invalidates a row, however often it is done. -/
theorem foldl_invalidated {rs : List Relation}
    (hRows : ∀ r ∈ rs, x.relationId = r.relationId → SameCore r x) :
    ∀ y : Relation, y.overwrite = x.overwrite → rs.foldl (fun y r =>
        if decide (y.relationId = (r.invalidated now).relationId) then
          y.overwrite (r.invalidated now) else y) y =
      if x.relationId ∈ rs.map Relation.relationId then x.invalidated now else y := by
  induction rs with
  | nil => exact fun _ _ => rfl
  | cons r rs ih =>
    intro y hSame
    have ih := ih fun r' hr' => hRows r' (mem_cons_of_mem _ hr')
    have hId : y.relationId = x.relationId := congrArg (fun f => (f x).relationId) hSame
    rw [foldl_cons]
    by_cases hr : x.relationId = r.relationId
    · have hCore := hRows r mem_cons_self hr
      have hAt : y.relationId = (r.invalidated now).relationId := hId.trans hr
      rw [decide_eq_true hAt, if_pos rfl, congrFun hSame, hCore.overwrite_invalidated,
        ih (x.invalidated now) rfl]
      simp [hr]
    · have hNot : y.relationId ≠ (r.invalidated now).relationId := fun h => hr (hId.symm.trans h)
      rw [decide_eq_false hNot, if_neg Bool.false_ne_true, ih y hSame]
      simp [hr]

theorem result_invalidateSubmissions (hCopies : Copies relations table) (hKeyed : Keyed table) :
    (invalidateSubmissions relations now table).result = .ok (takenBack now table) := by
  unfold invalidateSubmissions updateRelation takenBack
  rw [result_updates]
  refine congrArg _ (map_congr_left fun x hx => ?_)
  rw [foldl_invalidated (fun r hr hId =>
    hCopies.core_of_id hKeyed (mem_filter.mp hr).1 hx hId) x rfl]
  rw [if_congr (hCopies.mem_handedIn hKeyed hx) rfl rfl]
  unfold Relation.taken
  by_cases hCur : x.supersededAt = none <;> by_cases hIn : x.status.handedIn = true <;>
    simp [mem_current, hx, hCur, hIn]

/-! ## Keys and current relations afterwards -/

variable {f : Relation → Relation}

theorem Keyed.map (hKeyed : Keyed table) (hf : ∀ x, (f x).relationId = x.relationId) :
    Keyed (table.map f) := by
  unfold Keyed at hKeyed ⊢
  rwa [map_map, map_congr_left (f := Relation.relationId ∘ f)
    fun x _ => hf x]

theorem Keyed.updated (hKeyed : Keyed table) : Keyed (updated r table) := by
  refine hKeyed.map fun x => ?_
  split <;> rfl

theorem Keyed.supersededIn {ids : List Uuid} (hKeyed : Keyed table) :
    Keyed (supersededIn ids now table) := by
  refine hKeyed.map fun x => ?_
  split <;> rfl

theorem Keyed.takenBack (hKeyed : Keyed table) : Keyed (takenBack now table) := by
  refine hKeyed.map fun x => ?_
  unfold Relation.taken
  split
  · split <;> rfl
  · rfl

theorem current_append (a b : List Relation) : current (a ++ b) = current a ++ current b :=
  filter_append ..

theorem current_map (hf : ∀ x ∈ table, (f x).supersededAt.isNone = x.supersededAt.isNone) :
    current (table.map f) = (current table).map f := by
  unfold current
  rw [filter_map]
  congr 1
  exact filter_congr fun x hx => hf x hx

theorem current_updated (hCur : ∀ x ∈ table, x.relationId = r.relationId → x.supersededAt = none)
    (hr : r.supersededAt = none) : current (updated r table) = updated r (current table) := by
  refine current_map fun x hx => ?_
  split
  · rename_i hId
    rw [hCur x hx hId]
    show r.supersededAt.isNone = _
    rw [hr]
  · rfl

theorem current_takenBack : current (takenBack now table) = (current table).map (·.taken now) := by
  unfold takenBack
  rw [current_map]
  · refine map_congr_left fun x hx => ?_
    rw [if_pos (by rw [(mem_current.mp hx).2]; rfl)]
  · intro x _
    unfold Relation.taken
    split
    · split <;> rfl
    · rfl

theorem current_supersededIn (ids : List Uuid) :
    current (supersededIn ids now table) =
      (current table).filter fun x => decide (x.relationId ∉ ids) := by
  have hStay : ∀ x : Relation, (if x.relationId ∈ ids then x.superseded now else
      x).supersededAt.isNone = (decide (x.relationId ∉ ids) && x.supersededAt.isNone) := by
    intro x
    by_cases hId : x.relationId ∈ ids
    · rw [if_pos hId, decide_eq_false (not_not.mpr hId)]
      rfl
    · rw [if_neg hId, decide_eq_true hId, Bool.true_and]
  unfold current supersededIn
  rw [filter_map, filter_filter]
  -- The rows that stay current are those that the map leaves alone.
  have hFilter := filter_congr (l := table) fun x _ => hStay x
  rw [show ((fun x : Relation => x.supersededAt.isNone) ∘ fun x : Relation =>
    if x.relationId ∈ ids then x.superseded now else x) = fun x =>
      (if x.relationId ∈ ids then x.superseded now else x).supersededAt.isNone from rfl, hFilter]
  refine (map_congr_left fun x hx => ?_).trans (map_id _)
  have hNot : x.relationId ∉ ids := by
    have := (mem_filter.mp hx).2
    simp only [Bool.and_eq_true, decide_eq_true_eq] at this
    exact this.1
  rw [if_neg hNot]
  rfl

/-! ## The rows that are written -/

theorem rows_insertRelation (hRes : (insertRelation r table).result = .ok table') :
    (insertRelation r table).rows = [.relation r] := by
  unfold insertRelation at hRes ⊢
  obtain ⟨_, hReq, -⟩ := result_bind_ok.mp hRes
  rw [rows_bind_ok hReq, rows_require]
  rfl

variable {row : Row}

theorem mem_rows_updateRelation :
    row ∈ (updateRelation r table).rows ↔
      ∃ x ∈ table, x.relationId = r.relationId ∧ row = .relation (x.overwrite r) := by
  unfold updateRelation
  rw [rows_updateWhere]
  simp [and_assoc, eq_comm]

theorem mem_rows_supersedeRelation :
    row ∈ (supersedeRelation r now table).rows ↔
      ∃ x ∈ table, x.relationId = r.relationId ∧ row = .relation (x.superseded now) := by
  unfold supersedeRelation
  rw [rows_updateWhere]
  simp [and_assoc, eq_comm]

section

variable (rs : List Relation)

theorem rows_supersedeRelations (hRow : row ∈ (supersedeRelations rs now table).rows) :
    ∃ x ∈ table, row = .relation (x.superseded now) := by
  obtain ⟨r, -, x, hx, y, hSame, -, rfl⟩ :=
    mem_rows_updates (Relation.superseded now) (by intros; rfl) hRow
  exact ⟨x, hx, congrArg Row.relation hSame⟩

theorem rows_insertRelations (hRow : row ∈ (insertRelations rs table).rows) :
    ∃ r ∈ rs, row = .relation r := by
  obtain ⟨r, hr, mid, -, hRow⟩ :=
    mem_rows_fold (fun _ _ _ _ _ => trivial) trivial hRow
  refine ⟨r, hr, ?_⟩
  unfold insertRelation at hRow
  rw [rows_bind, rows_require, nil_append] at hRow
  split at hRow
  · exact mem_singleton.mp hRow
  · cases hRow

end

theorem rows_invalidateSubmissions (hCopies : Copies relations table) (hKeyed : Keyed table)
    (hRow : row ∈ (invalidateSubmissions relations now table).rows) :
    ∃ x ∈ current table, x.status.handedIn = true ∧ row = .relation (x.invalidated now) := by
  obtain ⟨r, hr, x, hx, y, hSame, hId, rfl⟩ :=
    mem_rows_updates Relation.overwrite (by intros; rfl) hRow
  have hAt : x.relationId = r.relationId :=
    (congrArg (fun f => (f x).relationId) hSame).symm.trans (of_decide_eq_true hId)
  have hCore := hCopies.core_of_id hKeyed (mem_filter.mp hr).1 hx hAt
  obtain ⟨hCur, hIn⟩ := (hCopies.mem_handedIn hKeyed hx).mp (mem_map.mpr ⟨r, hr, hAt.symm⟩)
  refine ⟨x, hCur, hIn, ?_⟩
  rw [congrFun hSame, hCore.overwrite_invalidated]

/-! ## Rows of the new table -/

/-- Every row of the table that the script leaves was there, or was written. -/
def Covered (table : List Relation) (p : Tx (List Relation)) : Prop :=
  ∀ table', p.result = .ok table' → ∀ x ∈ table', x ∈ table ∨ .relation x ∈ p.rows

namespace Covered

theorem ret : Covered table (.ret table) := by
  intro table' hRes x hx
  cases hRes
  exact .inl hx

theorem bind {p : Tx (List Relation)} {k : List Relation → Tx (List Relation)}
    (hp : Covered table p) (hk : ∀ mid, Covered mid (k mid)) : Covered table (p >>= k) := by
  intro table' hRes x hx
  obtain ⟨mid, hMid, hRest⟩ := result_bind_ok.mp hRes
  rw [rows_bind_ok hMid, mem_append]
  rcases hk mid table' hRest x hx with hx | hx
  · rcases hp mid hMid x hx with hx | hx
    · exact .inl hx
    · exact .inr (.inl hx)
  · exact .inr (.inr hx)

theorem fold {step : List Relation → Relation → Tx (List Relation)}
    (hStep : ∀ table r, Covered table (step table r)) (rs : List Relation) :
    Covered table (foldScript step rs table) := by
  induction rs generalizing table with
  | nil => exact ret
  | cons r rs ih => exact bind (hStep table r) fun _ => ih

theorem updateWhere {p : Relation → Bool} :
    Covered table (updateWhere p f .relation table) := by
  intro table' hRes x hx
  rw [result_updateWhere] at hRes
  cases hRes
  obtain ⟨y, hy, rfl⟩ := mem_map.mp hx
  rw [rows_updateWhere]
  by_cases hp : p y = true
  · rw [if_pos hp]
    exact .inr (mem_map.mpr ⟨y, mem_filter.mpr ⟨hy, hp⟩, rfl⟩)
  · rw [if_neg hp]
    exact .inl hy

theorem supersedeRelation : Covered table (supersedeRelation r now table) := updateWhere

theorem insertRelation : Covered table (insertRelation r table) := by
  intro table' hRes x hx
  rw [rows_insertRelation hRes]
  obtain ⟨-, rfl⟩ := result_insertRelation.mp hRes
  rcases mem_append.mp hx with hx | hx
  · exact .inl hx
  · rw [mem_singleton.mp hx]
    exact .inr (mem_singleton_self _)

theorem insertRelations (rs : List Relation) : Covered table (insertRelations rs table) :=
  fold (fun _ _ => insertRelation) rs

theorem supersedeRelations (rs : List Relation) :
    Covered table (supersedeRelations rs now table) :=
  fold (fun _ _ => supersedeRelation) rs

theorem invalidateSubmissions : Covered table (invalidateSubmissions relations now table) :=
  fold (fun _ _ => updateWhere) _

end Covered

end EternalAI.Dispatch
