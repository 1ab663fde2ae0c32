import Mathlib.Logic.Function.Basic
import Mathlib.Order.Defs.Unbundled

/-!
# Runs of a transition system

A run is the list of the states a system has gone through, newest first.
Properties of a whole run ("no two of these events", "preceded by") are
properties of that list, and are proved by induction on how it was built.

What a step may do depends on the whole run so far and not only on its last
state: a step that acts on something observed earlier is allowed because it
was observed.

* `Run.mem_inv` — a state invariant holds of every state of a run.
* `Run.rel_head` — a preorder that every step respects relates every earlier
  state of a run to its last one.
* `Run.mem_inv_rel` — both at once, where the one needs the other.
* `Run.map` — a run seen through a view is a run.
* `Run.of_suffix` — every earlier part of a run is a run.
* `Run.flips` — what holds in the end only has come to hold in some step.
* `position_eq` — two positions of a run of which neither comes first are one.
-/

namespace EternalAI.Lib

open List

variable {σ : Type} {init : σ → Prop} {step : List σ → σ → Prop}

/-- The runs of the system that starts in an `init` state and moves by
`step`, newest state first. -/
inductive Run (init : σ → Prop) (step : List σ → σ → Prop) : List σ → Prop
  | start {s : σ} : init s → Run init step [s]
  | step {s s' : σ} {t : List σ} : Run init step (s :: t) → step (s :: t) s' →
      Run init step (s' :: s :: t)

variable {h t : List σ}

theorem head_spec {P : σ → Prop} (hLast : ∃ s ∈ h.head?, P s) : ∃ s t, h = s :: t ∧ P s := by
  obtain ⟨s, hHead, hP⟩ := hLast
  obtain ⟨t, rfl⟩ := head?_eq_some_iff.mp hHead
  exact ⟨s, t, rfl, hP⟩

namespace Run

theorem ne_nil (hRun : Run init step h) : h ≠ [] := by
  cases hRun <;> simp

variable {I : σ → Prop}

/-- What holds initially and is kept by every step holds of every state of a
run. -/
theorem mem_inv (hInit : ∀ s, init s → I s) (hStep : ∀ s t s', I s → step (s :: t) s' → I s')
    (hRun : Run init step h) : ∀ s ∈ h, I s := by
  induction hRun with
  | start hs =>
    intro s hMem
    rw [mem_singleton.mp hMem]
    exact hInit _ hs
  | @step s s' t _ hst ih =>
    intro x hMem
    rcases mem_cons.mp hMem with rfl | hMem
    · exact hStep s t x (ih s mem_cons_self) hst
    · exact ih x hMem

variable {s : σ} {R : σ → σ → Prop}

/-- A state invariant and a preorder proved together: a step may rely on both
for all states so far. -/
theorem mem_inv_rel (hInit : ∀ s, init s → I s) (hRefl : ∀ s, R s s)
    (hTrans : ∀ {a b c}, R a b → R b c → R a c)
    (hStep : ∀ s t s', (∀ x ∈ s :: t, I x ∧ R x s) → step (s :: t) s' → I s' ∧ R s s')
    (hRun : Run init step (s :: t)) : ∀ x ∈ s :: t, I x ∧ R x s := by
  generalize hEq : s :: t = h at hRun
  induction hRun generalizing s t with
  | start hs =>
    cases hEq
    intro x hMem
    rw [mem_singleton.mp hMem]
    exact ⟨hInit _ hs, hRefl _⟩
  | @step s₀ s' t₀ _ hst ih =>
    cases hEq
    have hPast := ih rfl
    obtain ⟨hI, hR⟩ := hStep s₀ t₀ _ hPast hst
    intro x hMem
    rcases mem_cons.mp hMem with rfl | hMem
    · exact ⟨hI, hRefl _⟩
    · exact ⟨(hPast x hMem).1, hTrans (hPast x hMem).2 hR⟩

/-- A reflexive and transitive relation that contains every step relates every
state of a run to the last one. -/
theorem rel_head (hRefl : ∀ s, R s s) (hTrans : ∀ {a b c}, R a b → R b c → R a c)
    (hStep : ∀ s t s', step (s :: t) s' → R s s') (hRun : Run init step (s :: t)) :
    ∀ x ∈ s :: t, R x s := fun x hx =>
  (mem_inv_rel (fun _ _ => trivial) hRefl hTrans
    (fun s t s' _ hst => ⟨trivial, hStep s t s' hst⟩) hRun x hx).2

/-- A run seen through a view, where what is seen of a step is a step. -/
theorem map {τ : Type} (view : σ → τ) {init' : τ → Prop} {step' : List τ → τ → Prop}
    (hInit : ∀ s, init s → init' (view s))
    (hStep : ∀ s t s', Run init step (s :: t) → step (s :: t) s' →
      step' (view s :: t.map view) (view s')) (hRun : Run init step h) :
    Run init' step' (h.map view) := by
  induction hRun with
  | start hs => exact .start (hInit _ hs)
  | @step s s' t hBefore hst ih => exact .step ih (hStep s t s' hBefore hst)

theorem of_suffix (hRun : Run init step h) (hSuf : s :: t <:+ h) : Run init step (s :: t) := by
  induction hRun with
  | start hs =>
    rcases suffix_cons_iff.mp hSuf with hEq | hNil
    · exact hEq ▸ .start hs
    · cases suffix_nil.mp hNil
  | step hRun hst ih =>
    rcases suffix_cons_iff.mp hSuf with hEq | hSuf
    · exact hEq ▸ .step hRun hst
    · exact ih hSuf

/-- What does not hold initially, and holds in the end, has come to hold in a step. -/
theorem flips {P : σ → Prop} (hInit : ∀ s, init s → ¬P s) (hRun : Run init step (s :: t))
    (hP : P s) :
    ∃ r' r u, r' :: r :: u <:+ s :: t ∧ ¬P r ∧ P r' := by
  generalize hEq : s :: t = h at hRun
  induction hRun generalizing s t with
  | start hs =>
    cases hEq
    exact absurd hP (hInit _ hs)
  | @step s₀ s' t₀ _ _ ih =>
    obtain ⟨rfl, rfl⟩ := List.cons.inj hEq
    by_cases hBefore : P s₀
    · obtain ⟨r', r, u, hSuf, hFlip⟩ := ih hBefore rfl
      exact ⟨r', r, u, hSuf.trans (suffix_cons _ _), hFlip⟩
    · exact ⟨s, s₀, t₀, suffix_rfl, hBefore, hP⟩

theorem last_step {s' : σ} (hRun : Run init step (s' :: s :: t)) : step (s :: t) s' := by
  cases hRun with
  | step _ hst => exact hst

end Run

/-- Two positions of a history of which neither precedes the other are the same
position. -/
theorem position_eq {a b : σ} {u : List σ} (ha : a :: t <:+ h) (hb : b :: u <:+ h)
    (hab : ¬ a :: t <:+ u) (hba : ¬ b :: u <:+ t) : a :: t = b :: u := by
  rcases suffix_or_suffix_of_suffix ha hb with hSuf | hSuf
  · rcases suffix_cons_iff.mp hSuf with hEq | hSuf
    · exact hEq
    · exact absurd hSuf hab
  · rcases suffix_cons_iff.mp hSuf with hEq | hSuf
    · exact hEq.symm
    · exact absurd hSuf hba

end EternalAI.Lib
