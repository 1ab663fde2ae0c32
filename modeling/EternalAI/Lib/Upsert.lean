import EternalAI.Lib.Table

/-!
# Keyed tables: insert or update

`INSERT … ON CONFLICT (key) DO UPDATE` on a table that is the list of its rows:
the row with the same key is merged with the new values, or the new row is
added.

* `mem_upsert` — the rows afterwards.
* `nodup_map_upsert` — a column without duplicates stays so.
-/

namespace EternalAI.Lib

open List

variable {α β κ : Type} [DecidableEq κ] {key : α → κ} {merge : α → α} {x y : α} {xs : List α}

/-- Merge the rows that have the key of `x`, or add `x` when there is none. -/
def upsert (key : α → κ) (merge : α → α) (x : α) (xs : List α) : List α :=
  if key x ∈ xs.map key then xs.map fun y => if key y = key x then merge y else y else xs ++ [x]

theorem mem_upsert : y ∈ upsert key merge x xs ↔
    (y ∈ xs ∧ key y ≠ key x) ∨ (∃ z ∈ xs, key z = key x ∧ y = merge z) ∨
      (key x ∉ xs.map key ∧ y = x) := by
  unfold upsert
  split
  · rename_i hKey
    rw [mem_map]
    constructor
    · rintro ⟨z, hz, rfl⟩
      split
      · exact .inr (.inl ⟨z, hz, ‹_›, rfl⟩)
      · exact .inl ⟨hz, ‹_›⟩
    · rintro (⟨hy, hne⟩ | ⟨z, hz, hEq, rfl⟩ | ⟨hNo, -⟩)
      · exact ⟨y, hy, if_neg hne⟩
      · exact ⟨z, hz, if_pos hEq⟩
      · exact absurd hKey hNo
  · rename_i hKey
    have hFree : ∀ z ∈ xs, key z ≠ key x := fun z hz hEq =>
      hKey (mem_map.mpr ⟨z, hz, hEq⟩)
    rw [mem_append, mem_singleton]
    constructor
    · rintro (hy | rfl)
      · exact .inl ⟨hy, hFree y hy⟩
      · exact .inr (.inr ⟨hKey, rfl⟩)
    · rintro (⟨hy, -⟩ | ⟨z, hz, hEq, -⟩ | ⟨-, rfl⟩)
      · exact .inl hy
      · exact absurd hEq (hFree z hz)
      · exact .inr rfl

variable {f : α → β}

theorem map_upsert (hMerge : ∀ z, f (merge z) = f z) :
    (upsert key merge x xs).map f =
      if key x ∈ xs.map key then xs.map f else xs.map f ++ [f x] := by
  unfold upsert
  split
  · rw [map_map]
    refine map_congr_left fun z _ => ?_
    show f (if key z = key x then merge z else z) = f z
    split
    · exact hMerge z
    · rfl
  · rw [map_append, map_singleton]

/-- A column without duplicates stays so, when an added row brings a new value. -/
theorem nodup_map_upsert (hMerge : ∀ z, f (merge z) = f z) (hNodup : (xs.map f).Nodup)
    (hNew : key x ∉ xs.map key → f x ∉ xs.map f) : ((upsert key merge x xs).map f).Nodup := by
  rw [map_upsert hMerge]
  split
  · exact hNodup
  · exact nodup_append_new hNodup (hNew ‹_›)

/-- There is a row with the key afterwards. -/
theorem key_mem_upsert (hMerge : ∀ z, key (merge z) = key z) :
    key x ∈ (upsert key merge x xs).map key := by
  rw [map_upsert hMerge]
  split
  · assumption
  · exact mem_append_right _ (mem_singleton.mpr rfl)

end EternalAI.Lib
