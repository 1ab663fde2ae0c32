import Mathlib.Logic.Basic

/-!
# Fallible steps

Inversion rules for computations in `Except`: what is known when a sequence of
checks has succeeded.

* `ensure` — a check that raises when it fails.
* `bind_ok`, `ensure_ok` — a sequence succeeds where each step does.
* `Post` — what holds of a result, if there is one, with a rule for each kind of step.
* `fails_bind`, `fails_later` — it fails where one of them does.
-/

namespace EternalAI.Lib

open List

variable {ε α β : Type}

/-- Raise `e` unless `c` holds. -/
def ensure (c : Prop) [Decidable c] (e : ε) : Except ε Unit :=
  if c then .ok () else .error e

variable {x : Except ε α} {k : α → Except ε β} {b : β}

/-- A sequence of fallible steps succeeds where each of them does. -/
theorem bind_ok : (x >>= k) = .ok b ↔ ∃ a, x = .ok a ∧ k a = .ok b := by
  cases x with
  | ok a | error e => simp [bind, Except.bind]

variable {c : Prop} {e : ε}

theorem ensure_ok [Decidable c] {u : Unit} : ensure c e = .ok u ↔ c := by
  unfold ensure
  split <;> simp_all

/-- A check followed by the rest of the computation. -/
theorem ensure_bind_ok [Decidable c] {x : Except ε β} :
    (ensure c e >>= fun _ => x) = .ok b ↔ c ∧ x = .ok b := by
  rw [bind_ok]
  constructor
  · rintro ⟨u, hc, hx⟩
    exact ⟨ensure_ok.mp hc, hx⟩
  · rintro ⟨hc, hx⟩
    exact ⟨(), ensure_ok.mpr hc, hx⟩

theorem map_ok {f : α → β} : x.map f = .ok b ↔ ∃ a, x = .ok a ∧ f a = b := by
  cases x with
  | ok a | error e => simp [Except.map]

/-- A check that raises where the condition holds. -/
theorem refuse_ok [Decidable c] {x : Except ε β} :
    (if c then .error e else x) = .ok b ↔ ¬c ∧ x = .ok b := by
  split <;> simp_all

/-- What holds of the result of a fallible step, if it has one. -/
def Post (x : Except ε α) (Q : α → Prop) : Prop := ∀ a, x = .ok a → Q a

namespace Post

variable {Q : β → Prop}

theorem bind (hk : ∀ a, x = .ok a → Post (k a) Q) : Post (x >>= k) Q := by
  intro b hOk
  obtain ⟨a, hx, hOk⟩ := bind_ok.mp hOk
  exact hk a hx b hOk

theorem ensure [Decidable c] {x : Except ε β} (hx : c → Post x Q) :
    Post (ensure c e >>= fun _ => x) Q :=
  bind fun _ hc => hx (ensure_ok.mp hc)

theorem ret (hb : Q b) : Post (.ok b : Except ε β) Q := by
  rintro _ ⟨⟩
  exact hb

theorem fail : Post (.error e : Except ε β) Q := nofun

end Post

/-- Where a list of fallible steps succeeds, each of them has given a result. -/
theorem mapM_ok {f : α → Except ε β} {xs : List α} {ys : List β} (hOk : xs.mapM f = .ok ys) :
    ∀ x ∈ xs, ∃ y ∈ ys, f x = .ok y := by
  induction xs generalizing ys with
  | nil => exact fun x hx => nomatch hx
  | cons x xs ih =>
    rw [mapM_cons] at hOk
    obtain ⟨y, hy, hOk⟩ := bind_ok.mp hOk
    obtain ⟨rest, hRest, hOk⟩ := bind_ok.mp hOk
    cases hOk
    intro z hz
    rcases mem_cons.mp hz with rfl | hz
    · exact ⟨y, mem_cons_self, hy⟩
    · obtain ⟨y', hy', hSame⟩ := ih hRest z hz
      exact ⟨y', mem_cons_of_mem _ hy', hSame⟩

/-- Renaming the exception does not change what succeeds. -/
theorem mapError_ok {ε' : Type} {f : ε → ε'} {a : α} : x.mapError f = .ok a ↔ x = .ok a := by
  cases x with
  | ok b => exact ⟨(fun hEq => by cases hEq; rfl), (fun hEq => by cases hEq; rfl)⟩
  | error e => exact ⟨nofun, nofun⟩

theorem mem_toOption {a : α} : a ∈ x.toOption ↔ x = .ok a := by
  cases x <;> simp [Except.toOption]

/-- What fails at once fails. -/
theorem fails_bind (hx : ∃ e, x = .error e) : ∃ e, x >>= k = .error e := by
  obtain ⟨e, rfl⟩ := hx
  exact ⟨e, rfl⟩

/-- What fails later on fails. -/
theorem fails_later (hk : ∀ a, x = .ok a → ∃ e, k a = .error e) : ∃ e, x >>= k = .error e := by
  cases x with
  | ok a => exact hk a rfl
  | error e => exact ⟨e, rfl⟩

end EternalAI.Lib
