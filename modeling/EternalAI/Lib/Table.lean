import Mathlib.Data.List.Nodup

/-!
# Keyed tables: look up, change, insert

A table is the list of its rows. `lookup` is `SELECT … WHERE key = k`, `modify`
is `UPDATE … WHERE key = k`, and an insert appends. What a statement does to the
row of one key is all that a proof about rows needs.

* `lookup_modify_self`, `lookup_modify_of_ne` — an update, seen from one key.
* `lookup_insert` — an insert, seen from one key.
* `put` — a row written under its key; `countP_put` says what that does to a
  count of rows.
* `length_le_one_of_same` — a unique column with one value in it.
-/

namespace EternalAI.Lib

open List

variable {α κ : Type} [DecidableEq κ] {key : α → κ} {k k' : κ} {f : α → α} {x : α} {xs : List α}

def lookup (key : α → κ) (k : κ) (xs : List α) : Option α := xs.find? fun x => key x = k

def modify (key : α → κ) (k : κ) (f : α → α) (xs : List α) : List α :=
  xs.map fun x => if key x = k then f x else x

/-- What is said of a row that is there is said of the row. -/
theorem forall_some {o : Option α} {P : α → Prop} (hSome : o = some x) (hx : P x) :
    ∀ y, o = some y → P y :=
  fun _ hy => Option.some.inj (hSome.symm.trans hy) ▸ hx

theorem lookup_mem (hFound : lookup key k xs = some x) : x ∈ xs :=
  mem_of_find?_eq_some hFound

theorem lookup_key (hFound : lookup key k xs = some x) : key x = k := by
  simpa using find?_some hFound

@[simp] theorem lookup_nil : lookup key k ([] : List α) = none := rfl

theorem lookup_cons : lookup key k (x :: xs) = if key x = k then some x else lookup key k xs := by
  unfold lookup
  split <;> simp_all

theorem lookup_modify_self (hKey : ∀ y, key (f y) = key y) :
    lookup key k (modify key k f xs) = (lookup key k xs).map f := by
  induction xs with
  | nil => rfl
  | cons y ys ih =>
    rw [modify, map_cons, lookup_cons, lookup_cons]
    by_cases hy : key y = k
    · rw [if_pos hy, if_pos ((hKey y).trans hy), if_pos hy]
      rfl
    · rw [if_neg hy, if_neg hy, if_neg hy]
      exact ih

theorem lookup_modify_of_ne (hKey : ∀ y, key (f y) = key y) (hne : k' ≠ k) :
    lookup key k' (modify key k f xs) = lookup key k' xs := by
  induction xs with
  | nil => rfl
  | cons y ys ih =>
    rw [modify, map_cons, lookup_cons, lookup_cons]
    have hSame : key (if key y = k then f y else y) = key y := by
      split
      · exact hKey y
      · rfl
    rw [hSame]
    by_cases hy : key y = k'
    · rw [if_pos hy, if_pos hy, if_neg fun hk => hne (hy.symm.trans hk)]
    · rw [if_neg hy, if_neg hy]
      exact ih

/-- A new row is found under its key, and nothing else changes. -/
theorem lookup_insert : lookup key k (xs ++ [x]) =
    (lookup key k xs).or (if key x = k then some x else none) := by
  unfold lookup
  rw [find?_append]
  rw [find?_singleton]
  simp only [decide_eq_true_eq]

/-! ## Whole rows -/

/-- The table with this row under its key, whether or not there was one. -/
def put (key : α → κ) (x : α) : List α → List α
  | [] => [x]
  | y :: ys => if key y = key x then x :: ys else y :: put key x ys

theorem lookup_put_self : lookup key (key x) (put key x xs) = some x := by
  induction xs with
  | nil => simp [put, lookup_cons]
  | cons y ys ih =>
    rw [put]
    by_cases hy : key y = key x
    · rw [if_pos hy, lookup_cons, if_pos rfl]
    · rw [if_neg hy, lookup_cons, if_neg hy]
      exact ih

theorem lookup_put_of_ne (hne : k ≠ key x) : lookup key k (put key x xs) = lookup key k xs := by
  induction xs with
  | nil => simp [put, lookup_cons, hne.symm]
  | cons y ys ih =>
    rw [put]
    by_cases hy : key y = key x
    · rw [if_pos hy, lookup_cons, lookup_cons, if_neg hne.symm,
        if_neg fun hk => hne (hk.symm.trans hy)]
    · rw [if_neg hy, lookup_cons, lookup_cons, ih]

theorem map_key_put : (put key x xs).map key =
    if key x ∈ xs.map key then xs.map key else xs.map key ++ [key x] := by
  induction xs with
  | nil => simp [put]
  | cons y ys ih =>
    rw [put]
    by_cases hy : key y = key x
    · simp [hy]
    · rw [if_neg hy, map_cons, ih, map_cons]
      simp only [mem_cons, Ne.symm hy, false_or]
      split <;> rfl

theorem nodup_append_new (hNodup : xs.Nodup) (hNew : x ∉ xs) : (xs ++ [x]).Nodup :=
  concat_eq_append ▸ List.Nodup.concat hNew hNodup

/-- A column stays without repetitions when the new row has a value of its own. -/
theorem nodup_map_append_new {β : Type} {f : α → β} (hNodup : (xs.map f).Nodup)
    (hNew : ∀ y ∈ xs, f y ≠ f x) : ((xs ++ [x]).map f).Nodup := by
  rw [map_append]
  refine nodup_append_new hNodup fun hMem => ?_
  obtain ⟨y, hy, hSame⟩ := mem_map.mp hMem
  exact hNew y hy hSame

/-- No key comes twice. -/
theorem nodup_put (hNodup : (xs.map key).Nodup) : ((put key x xs).map key).Nodup := by
  rw [map_key_put]
  split
  · exact hNodup
  · exact nodup_append_new hNodup ‹_›

/-- Counting rows: the new row is counted in the place of the old one. -/
theorem countP_put (P : α → Bool) : (put key x xs).countP P +
      (if (lookup key (key x) xs).any P then 1 else 0) = xs.countP P + if P x then 1 else 0 := by
  induction xs with
  | nil => simp [put, countP_cons]
  | cons y ys ih =>
    rw [put, lookup_cons]
    by_cases hy : key y = key x
    · simp only [if_pos hy, countP_cons, Option.any_some]
      omega
    · simp only [if_neg hy, countP_cons]
      omega

/-- A row is found under its key, where no key comes twice. -/
theorem lookup_of_mem (hNodup : (xs.map key).Nodup) (hMem : x ∈ xs) :
    lookup key (key x) xs = some x := by
  induction xs with
  | nil => cases hMem
  | cons y ys ih =>
    rw [map_cons, nodup_cons] at hNodup
    rw [lookup_cons]
    rcases mem_cons.mp hMem with rfl | hMem
    · rw [if_pos rfl]
    · have hApart : key y ≠ key x := fun hy => hNodup.1 (hy ▸ mem_map_of_mem hMem)
      rw [if_neg hApart]
      exact ih hNodup.2 hMem

/-- Rows that differ in a column and all have the same in it are at most one. -/
theorem length_le_one_of_same {β : Type} {f : α → β} {b : β} (hNodup : (xs.map f).Nodup)
    (hSame : ∀ x ∈ xs, f x = b) : xs.length ≤ 1 := by
  have hAll : xs.map f = List.replicate xs.length b := map_eq_replicate_iff.mpr hSame
  rw [hAll] at hNodup
  exact nodup_replicate.mp hNodup

end EternalAI.Lib
