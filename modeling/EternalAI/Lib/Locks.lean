import Mathlib.Logic.Function.Basic

/-!
# Locks that are held by transactions

A table of advisory locks. A transaction gets its number with the lock that it takes, so
no number is used twice. A lock is given up at the end of its transaction, also where the
server ends the transaction.

* `Locks.Later` — what becomes of the locks: a number that holds a lock no more never
  holds it again.
* `Later.held` — so what a transaction holds in the end, it has held all along.
-/

namespace EternalAI.Lib

open Function

variable {κ : Type}

/-- Which transaction holds a lock, and the number of the next one. -/
structure Locks (κ : Type) where
  holder : κ → Option Nat
  next : Nat
  bounded : ∀ k tx, holder k = some tx → tx < next

namespace Locks

def none : Locks κ := ⟨fun _ => .none, 0, nofun⟩

variable [DecidableEq κ]

section

variable (l : Locks κ) (k : κ)

def take : Locks κ where
  holder := update l.holder k (some l.next)
  next := l.next + 1
  bounded := by
    intro k' tx hHolds
    by_cases hk : k' = k
    · subst hk
      rw [update_self] at hHolds
      exact Option.some.inj hHolds ▸ Nat.lt_succ_self _
    · rw [update_of_ne hk] at hHolds
      exact Nat.lt_succ_of_lt (l.bounded k' tx hHolds)

def release : Locks κ where
  holder := update l.holder k .none
  next := l.next
  bounded := by
    intro k' tx hHolds
    by_cases hk : k' = k
    · subst hk
      rw [update_self] at hHolds
      cases hHolds
    · rw [update_of_ne hk] at hHolds
      exact l.bounded k' tx hHolds

@[simp] theorem take_self : (l.take k).holder k = some l.next :=
  update_self ..

@[simp] theorem release_self : (l.release k).holder k = .none :=
  update_self ..

theorem release_of_ne {k k' : κ} (hne : k' ≠ k) :
    (l.release k).holder k' = l.holder k' := update_of_ne hne ..

end

omit [DecidableEq κ] in
/-- Nobody holds a lock who has not held it before, but new transactions. -/
structure Later (a b : Locks κ) : Prop where
  next : a.next ≤ b.next
  gone : ∀ k tx, tx < a.next → a.holder k ≠ some tx → b.holder k ≠ some tx

namespace Later

variable {a b c : Locks κ} {k : κ} {tx : Nat}

omit [DecidableEq κ] in
theorem refl (a : Locks κ) : a.Later a := ⟨Nat.le_refl _, fun _ _ _ hNot => hNot⟩

omit [DecidableEq κ] in
theorem trans (hab : a.Later b) (hbc : b.Later c) : a.Later c :=
  ⟨Nat.le_trans hab.next hbc.next, fun k tx hTx hNot =>
    hbc.gone k tx (Nat.lt_of_lt_of_le hTx hab.next) (hab.gone k tx hTx hNot)⟩

omit [DecidableEq κ] in
/-- What a transaction holds later, it holds now. -/
theorem held (hLater : a.Later b) (hTx : tx < a.next) (hHolds : b.holder k = some tx) :
    a.holder k = some tx := by
  by_contra hNot
  exact hLater.gone k tx hTx hNot hHolds

theorem take (a : Locks κ) (k : κ) : a.Later (a.take k) := by
  refine ⟨Nat.le_succ _, fun k' tx hTx hNot hHolds => ?_⟩
  by_cases hk : k' = k
  · subst hk
    rw [take_self] at hHolds
    exact Nat.ne_of_gt hTx (Option.some.inj hHolds)
  · exact hNot ((update_of_ne hk ..).symm.trans hHolds)

omit [DecidableEq κ] in
/-- Locks are given up. -/
theorem released (hNext : a.next = b.next)
    (hHolder : ∀ k, b.holder k = a.holder k ∨ b.holder k = .none) : a.Later b := by
  refine ⟨Nat.le_of_eq hNext, fun k tx _ hNot hHolds => ?_⟩
  rcases hHolder k with hSame | hFree
  · exact hNot (hSame.symm.trans hHolds)
  · rw [hFree] at hHolds
    cases hHolds

theorem release (a : Locks κ) (k : κ) : a.Later (a.release k) := by
  refine released rfl fun k' => ?_
  by_cases hk : k' = k
  · subst hk
    exact .inr (release_self a k')
  · exact .inl (release_of_ne a hk)

end Later

end Locks

end EternalAI.Lib
