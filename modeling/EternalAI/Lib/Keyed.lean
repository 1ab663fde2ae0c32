import EternalAI.Lib.Table

/-!
# Tables with a primary key

A table whose rows differ in their key, by construction. All that is known of a table is
what it has under each key: `find` after an update or an insert is one equation.

* `Keyed.Evolves` — what a step does to a table: rows move by a relation and stay under
  their key, and new rows are of some kind. No row is deleted.
* `Evolves.update`, `Evolves.map`, `Evolves.insert` — the statements that write are such
  steps.
* `Evolves.trans` — and so are several of them, where the relation is a preorder.
-/

namespace EternalAI.Lib

open List

variable {α κ ε : Type} {key : α → κ}

/-- The rows of a table, of which no two have the same key. -/
structure Keyed (key : α → κ) where
  rows : List α
  nodup : (rows.map key).Nodup

namespace Keyed

def empty : Keyed key := ⟨[], nodup_nil⟩

/-- `UPDATE` of all rows, which keep their keys. -/
def map (t : Keyed key) (f : α → α) (hf : ∀ x, key (f x) = key x) : Keyed key where
  rows := t.rows.map f
  nodup := by
    rw [map_map, show key ∘ f = key from funext hf]
    exact t.nodup

variable [DecidableEq κ] {t t' : Keyed key} {k : κ} {x : α}

/-- `SELECT … WHERE key = k`. -/
def find (t : Keyed key) (k : κ) : Option α := lookup key k t.rows

/-- `UPDATE … WHERE key = k`. -/
def update (t : Keyed key) (k : κ) (f : α → α) (hf : ∀ x, key (f x) = key x) : Keyed key :=
  t.map (fun x => if key x = k then f x else x) fun x => by
    split
    · exact hf x
    · rfl

/-- `INSERT`, which fails on a key that is there. -/
def insert (t : Keyed key) (x : α) (e : ε) : Except ε (Keyed key) :=
  if hFresh : key x ∈ t.rows.map key then .error e
  else .ok
    { rows := t.rows ++ [x]
      nodup := by
        rw [map_append]
        exact nodup_append_new t.nodup hFresh }

/-! ## What is found -/

theorem find_some : t.find k = some x ↔ x ∈ t.rows ∧ key x = k := by
  constructor
  · intro hFound
    exact ⟨lookup_mem hFound, lookup_key hFound⟩
  · rintro ⟨hMem, rfl⟩
    exact lookup_of_mem t.nodup hMem

theorem find_key (hMem : x ∈ t.rows) : t.find (key x) = some x := find_some.mpr ⟨hMem, rfl⟩

theorem find_own (hFound : t.find k = some x) : t.find (key x) = some x :=
  find_key (find_some.mp hFound).1

variable {f : α → α} {hf : ∀ x, key (f x) = key x}

theorem find_map : (t.map f hf).find k = (t.find k).map f := by
  unfold find lookup map
  rw [find?_map]
  congr 1
  refine congrArg (List.find? · t.rows) (funext fun x => ?_)
  simp only [Function.comp_apply, hf]

theorem find_update {k' : κ} :
    (t.update k f hf).find k' = if k' = k then (t.find k').map f else t.find k' := by
  rw [update, find_map]
  cases hFound : t.find k' with
  | none => split <;> rfl
  | some x =>
    simp only [Option.map_some, lookup_key hFound]
    split <;> rfl

/-- Two updates of one row. -/
theorem find_update_update (f g : α → α) (hf : ∀ x, key (f x) = key x)
    (hg : ∀ x, key (g x) = key x) (k' : κ) : ((t.update k f hf).update k g hg).find k' =
      if k' = k then (t.find k').map fun x => g (f x) else t.find k' := by
  rw [find_update, find_update]
  split
  · rw [Option.map_map]
    rfl
  · rfl

variable {e : ε}

theorem find_insert (hOk : t.insert x e = .ok t') :
    t.find (key x) = none ∧ ∀ k, t'.find k = if k = key x then some x else t.find k := by
  unfold insert at hOk
  split at hOk
  · cases hOk
  · rename_i hFresh
    cases hOk
    have hNone : t.find (key x) = none := by
      cases hFound : t.find (key x) with
      | none => rfl
      | some y =>
        obtain ⟨hMem, hKey⟩ := find_some.mp hFound
        exact absurd (hKey ▸ mem_map_of_mem hMem) hFresh
    refine ⟨hNone, fun k => ?_⟩
    unfold find at hNone ⊢
    rw [lookup_insert]
    split
    · subst k
      rw [if_pos rfl, hNone, Option.none_or]
    · rw [if_neg (Ne.symm ‹_›), Option.or_none]

/-- A row with a new key is inserted. -/
theorem insert_fresh (t : Keyed key) (e : ε) (hFresh : t.find (key x) = none) :
    ∃ t', t.insert x e = .ok t' := by
  unfold insert
  split
  · rename_i hThere
    obtain ⟨y, hy, hKey⟩ := mem_map.mp hThere
    rw [← hKey, find_key hy] at hFresh
    cases hFresh
  · exact ⟨_, rfl⟩

/-! ## Steps of a table -/

/-- What may become of the row of a key. -/
inductive Change (R : α → α → Prop) (New : α → Prop) : Option α → Option α → Prop
  | absent : Change R New none none
  | added {x : α} : New x → Change R New none (some x)
  | moved {x x' : α} : R x x' → Change R New (some x) (some x')

/-- Every row moves by `R`, and what is added is `New`. -/
def Evolves (R : α → α → Prop) (New : α → Prop) (t t' : Keyed key) : Prop :=
  ∀ k, Change R New (t.find k) (t'.find k)

namespace Evolves

variable {R R' : α → α → Prop} {New New' : α → Prop}

theorem refl (hRefl : ∀ x, R x x) : Evolves R New t t := by
  intro k
  cases t.find k with
  | none => exact .absent
  | some x => exact .moved (hRefl x)

theorem map (f : α → α) (hf : ∀ x, key (f x) = key x)
    (hMove : ∀ k x, t.find k = some x → R x (f x)) : Evolves R New t (t.map f hf) := by
  intro k
  rw [find_map]
  cases hFound : t.find k with
  | none => exact .absent
  | some x => exact .moved (hMove k x hFound)

/-- An update of the row of a key, given by what is found afterwards. -/
theorem of_find (hRefl : ∀ x, R x x)
    (hFind : ∀ k', t'.find k' = if k' = k then (t.find k').map f else t.find k')
    (hMove : ∀ x, t.find k = some x → R x (f x)) : Evolves R New t t' := by
  intro k'
  rw [hFind k']
  cases hFound : t.find k' with
  | none => split <;> exact .absent
  | some x =>
    split
    · subst k'
      exact .moved (hMove x hFound)
    · exact .moved (hRefl x)

section

variable (f : α → α) (hf : ∀ x, key (f x) = key x)

theorem update (hRefl : ∀ x, R x x) (hMove : ∀ x, t.find k = some x → R x (f x)) :
    Evolves R New t (t.update k f hf) :=
  of_find hRefl (fun _ => find_update) hMove

theorem update_update (g : α → α) (hf : ∀ x, key (f x) = key x) (hg : ∀ x, key (g x) = key x)
    (hRefl : ∀ x, R x x) (hMove : ∀ x, t.find k = some x → R x (g (f x))) :
    Evolves R New t ((t.update k f hf).update k g hg) :=
  of_find hRefl (find_update_update f g hf hg) hMove

/-- One more row is updated, which was not touched before. -/
theorem then_update (hEvolves : Evolves R New t t') (hSame : t'.find k = t.find k)
    (hMove : ∀ x, t.find k = some x → R x (f x)) : Evolves R New t (t'.update k f hf) := by
  intro k'
  rw [find_update]
  split
  · subst k'
    rw [hSame]
    cases hFound : t.find k with
    | none => exact .absent
    | some x => exact .moved (hMove x hFound)
  · exact hEvolves k'

end

variable {t'' : Keyed key}

/-- A row is inserted after such a step. -/
theorem then_insert (hEvolves : Evolves R New t t') (hOk : t'.insert x e = .ok t'') (hNew : New x) :
    Evolves R New t t'' := by
  obtain ⟨hNone, hFind⟩ := find_insert hOk
  intro k
  rw [hFind k]
  split
  · subst k
    have hChange := hEvolves (key x)
    rw [hNone] at hChange
    generalize t.find (key x) = before at hChange ⊢
    cases hChange with
    | absent => exact .added hNew
  · exact hEvolves k

theorem insert (hRefl : ∀ x, R x x) (hOk : t.insert x e = .ok t') (hNew : New x) :
    Evolves R New t t' :=
  (refl hRefl).then_insert hOk hNew

theorem kept (hEvolves : Evolves R New t t') (hFound : t.find k = some x) :
    ∃ x', t'.find k = some x' ∧ R x x' := by
  have hChange := hEvolves k
  rw [hFound] at hChange
  cases hNow : t'.find k with
  | none =>
    rw [hNow] at hChange
    cases hChange
  | some x' =>
    rw [hNow] at hChange
    cases hChange with
    | moved hMove => exact ⟨x', rfl, hMove⟩

theorem origin (hEvolves : Evolves R New t t') (hFound : t'.find k = some x) :
    (t.find k = none ∧ New x) ∨ ∃ y, t.find k = some y ∧ R y x := by
  have hChange := hEvolves k
  rw [hFound] at hChange
  cases hBefore : t.find k with
  | none =>
    rw [hBefore] at hChange
    cases hChange with
    | added hNew => exact .inl ⟨rfl, hNew⟩
  | some y =>
    rw [hBefore] at hChange
    cases hChange with
    | moved hMove => exact .inr ⟨y, rfl, hMove⟩

theorem imp (hEvolves : Evolves R New t t') (hR : ∀ k x x', t.find k = some x → R x x' → R' x x')
    (hNew : ∀ x, New x → New' x) : Evolves R' New' t t' := by
  intro k
  have hChange := hEvolves k
  have hFound := hR k
  generalize t.find k = before at hChange hFound ⊢
  generalize t'.find k = now at hChange ⊢
  cases hChange with
  | absent => exact .absent
  | added hx => exact .added (hNew _ hx)
  | moved hx => exact .moved (hFound _ _ rfl hx)

theorem trans (hTrans : ∀ {x y z}, R x y → R y z → R x z) (hStable : ∀ {x y}, New x → R x y → New y)
    (hFirst : Evolves R New t t') (hThen : Evolves R New t' t'') : Evolves R New t t'' := by
  intro k
  have hOne := hFirst k
  have hTwo := hThen k
  generalize t.find k = before at hOne ⊢
  generalize t'.find k = between at hOne hTwo
  generalize t''.find k = now at hTwo ⊢
  cases hOne with
  | absent => exact hTwo
  | added hx =>
    cases hTwo with
    | moved hy => exact .added (hStable hx hy)
  | moved hx =>
    cases hTwo with
    | moved hy => exact .moved (hTrans hx hy)

end Evolves

end Keyed

end EternalAI.Lib
