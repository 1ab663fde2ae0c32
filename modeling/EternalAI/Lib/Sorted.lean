import Mathlib.Data.List.Sort

/-!
# Lists in strict order

A list that is strictly sorted by a key is the only one with its elements, and sorting by
a key that tells the elements apart makes one.
-/

namespace EternalAI.Lib

open List

variable {α κ : Type} [LinearOrder κ] {key : α → κ} {as bs : List α}

def Sorted (key : α → κ) (as : List α) : Prop := as.Pairwise fun a b => key a < key b

theorem Sorted.nodup (hSorted : Sorted key as) : (as.map key).Nodup :=
  pairwise_map.mpr (hSorted.imp ne_of_lt)

theorem Sorted.eq_of_mem_iff (ha : Sorted key as) (hb : Sorted key bs)
    (hMem : ∀ x, x ∈ as ↔ x ∈ bs) : as = bs := by
  have hPerm : as.Perm bs := (perm_ext_iff_of_nodup ha.nodup.of_map hb.nodup.of_map).mpr hMem
  exact hPerm.eq_of_pairwise (fun _ _ _ _ hab hba => absurd hba (lt_asymm hab)) ha hb

theorem sorted_insertionSort (hNodup : (as.map key).Nodup) :
    Sorted key (as.insertionSort fun a b => key a ≤ key b) := by
  have hApart := ((perm_insertionSort (fun a b => key a ≤ key b) as).map key).nodup_iff.mpr hNodup
  rw [List.Nodup, pairwise_map] at hApart
  exact ((pairwise_insertionSort _ as).and hApart).imp fun ⟨hLe, hNe⟩ => lt_of_le_of_ne hLe hNe

end EternalAI.Lib
