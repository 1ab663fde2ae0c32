import EternalAI.Lib.Except
import EternalAI.Lib.Pool

/-!
# Transactions and their acknowledgement

A client that commits a transaction may get no answer, although the server has
committed or although it has not. `transact` is a transaction with its fate
given; the exceptions of an unknown outcome and of an early refusal are those
of the application.

* `Safe.transact` — such a transaction is safe when its commits are steps,
  whatever its fate; `Safe.transactWith` also says what it returns.
* `Tries` — a program of checks and one transaction: it fails and nothing has
  happened, or the transaction was committed.
-/

namespace EternalAI.Lib

variable {σ ε α : Type}

/-- What becomes of a transaction: it is acknowledged, it is committed or rolled
back with an exception from the commit, or the database refuses it earlier. -/
inductive Ack where
  | delivered | lost | rolledBack | refused
  deriving DecidableEq, Repr

/-- A transaction whose commit raises `unknown` when it is not acknowledged. One
that wrote nothing has no commit. -/
def transact (ack : Ack) (unknown refusal : ε) (wrote : α → Bool)
    (f : σ → Except ε (α × σ)) : Prog σ ε α :=
  match ack with
  | .delivered => Prog.atomic f
  | .lost => do
    let a ← Prog.atomic f
    Prog.require (wrote a = false) unknown
    pure a
  | .rolledBack => Prog.atomic fun s => do
    let (a, s') ← f s
    ensure (wrote a = false) unknown
    pure (a, s')
  | .refused => .raise refusal

variable {step : List σ → σ → Prop} {f : σ → Except ε (α × σ)}

variable {init : σ → Prop} {h : List σ} {ack : Ack} {unknown refusal : ε} {wrote : α → Bool}

/-- A transaction that was rolled back and answers has written nothing. -/
theorem rolledBack_ok (wrote : α → Bool) {s s' : σ} {a : α} (hOk : (do
      let (a, s') ← f s
      ensure (wrote a = false) unknown
      pure (a, s')) = .ok (a, s')) : f s = .ok (a, s') := by
  obtain ⟨⟨b, s₁⟩, hf, hRest⟩ := bind_ok.mp hOk
  obtain ⟨-, hEq⟩ := ensure_bind_ok.mp hRest
  cases hEq
  exact hf

/-- A transaction acts within the steps when its commits are steps, whatever
becomes of the acknowledgement. What it returns is true of what it committed, and
stays so. -/
theorem Safe.transactWith {Q : α → List σ → Prop} (hRefl : ∀ s t, step (s :: t) s)
    (hStable : ∀ a h h', h <:+ h' → Q a h → Q a h')
    (hf : ∀ s t, h <:+ s :: t → Run init step (s :: t) → ∀ a s', f s = .ok (a, s') →
      step (s :: t) s' ∧ Q a (s' :: s :: t)) :
    Safe init step Q (transact ack unknown refusal wrote f) h := by
  have hCommit : Safe init step Q (Prog.atomic f) h := Safe.atomic hRefl hf
  cases ack with
  | delivered => exact hCommit
  | lost =>
    refine Safe.seq hCommit fun a h' _ hQ => Safe.seq (P := fun _ _ => True) ?_
      fun _ h'' hExt _ => hStable a h' h'' hExt hQ
    exact Safe.require fun _ => trivial
  | rolledBack =>
    exact Safe.atomic hRefl fun s t hSuf hRun a s' hOk =>
      hf s t hSuf hRun a s' (rolledBack_ok wrote hOk)
  | refused => exact trivial

theorem Safe.transact (hRefl : ∀ s t, step (s :: t) s)
    (hf : ∀ s t a s', f s = .ok (a, s') → step (s :: t) s') :
    Safe init step (fun _ _ => True) (transact ack unknown refusal wrote f) h :=
  Safe.transactWith hRefl (fun _ _ _ _ _ => trivial) fun s t _ _ a s' hOk =>
    ⟨hf s t a s' hOk, trivial⟩

/-- A transaction moves the state by its commits, whatever its fate. -/
theorem Prog.Moves.transact {R : σ → σ → Prop} (hRefl : ∀ s, R s s)
    (hf : ∀ s a s', f s = .ok (a, s') → R s s') :
    (transact ack unknown refusal wrote f).Moves R := by
  cases ack with
  | delivered => exact Moves.atomic hRefl hf
  | lost =>
    refine (Moves.atomic hRefl hf).seq fun a => ?_
    exact (Moves.require (wrote a = false) unknown).seq fun _ => trivial
  | rolledBack => exact Moves.atomic hRefl fun s a s' hOk => hf s a s' (rolledBack_ok wrote hOk)
  | refused => exact trivial

/-- **A transaction that fails has changed nothing, unless its commit was stored and
only the answer to it was lost.** -/
theorem Prog.Ends.of_transact {steps : List (σ × σ)} {r : Except ε α}
    (hEnds : (transact ack unknown refusal wrote f).Ends steps r) :
    (∃ e, r = .error e) ∧ Prog.Still steps ∨ ∃ s a s', f s = .ok (a, s') ∧ steps = [(s, s')] ∧
      ((ack = .delivered ∨ wrote a = false) ∧ r = .ok a ∨ ack = .lost ∧ r = .error unknown) := by
  cases ack with
  | delivered =>
    obtain ⟨s, rfl, rfl⟩ := hEnds.of_atomic
    cases hf : f s with
    | error e => exact .inl ⟨⟨e, rfl⟩, Prog.still_failed hf⟩
    | ok out =>
      obtain ⟨a, s'⟩ := out
      exact .inr ⟨s, a, s', hf, by rw [Prog.committed_ok hf], .inl ⟨.inl rfl, rfl⟩⟩
  | lost =>
    obtain ⟨s, rest, rfl, ⟨e, hf, rfl, rfl⟩ | ⟨a, s', hf, hRest⟩⟩ := hEnds.of_atomic_seq
    · exact .inl ⟨⟨e, rfl⟩, Prog.still_failed hf⟩
    refine .inr ⟨s, a, s', hf, ?_⟩
    rw [Prog.committed_ok hf]
    obtain ⟨-, rfl, rfl⟩ | ⟨hNone, hRest⟩ := hRest.of_require
    · exact ⟨rfl, .inr ⟨rfl, rfl⟩⟩
    · cases hRest
      exact ⟨rfl, .inl ⟨.inr hNone, rfl⟩⟩
  | rolledBack =>
    -- whatever it has written is taken back
    obtain ⟨s, rfl, rfl⟩ := hEnds.of_atomic
    cases hAll : (do
        let (a, s') ← f s
        ensure (wrote a = false) unknown
        pure (a, s')) with
    | error e => exact .inl ⟨⟨e, rfl⟩, Prog.still_failed hAll⟩
    | ok out =>
      obtain ⟨⟨a, s'⟩, hf, hRest⟩ := bind_ok.mp hAll
      obtain ⟨hNone, hEq⟩ := ensure_bind_ok.mp hRest
      cases hEq
      exact .inr ⟨s, a, s', hf, by rw [Prog.committed_ok hAll], .inl ⟨.inr hNone, rfl⟩⟩
  | refused =>
    cases hEnds
    exact .inl ⟨⟨_, rfl⟩, Prog.still_nil⟩

/-- Catching an exception is no step. -/
theorem Safe.caught {p : Prog σ ε α} (hp : Safe init step (fun _ _ => True) p h) :
    Safe init step (fun _ _ => True) p.attempt h :=
  Safe.attempt hp (fun _ _ _ _ => trivial) fun _ _ _ => trivial

/-! ## All or nothing -/

/-- Executed alone, the program raises and leaves the state alone, or it moves the state
by `R`; it raises after such a move only if it is not `sure` to be answered. -/
def Tries (R : σ → σ → Prop) (sure : Prop) (p : Prog σ ε α) : Prop :=
  ∀ s r s', p.run s = (r, s') →
    (s' = s ∧ ∃ e, r = .error e) ∨ R s s' ∧ ((∃ a, r = .ok a) ∨ ¬sure)

namespace Tries

variable {β : Type} {R : σ → σ → Prop} {sure : Prop}

theorem ofExcept_seq {x : Except ε α} {k : α → Prog σ ε β}
    (hk : ∀ a, x = .ok a → Tries R sure (k a)) : Tries R sure (Prog.ofExcept x >>= k) := by
  cases x with
  | ok a => exact hk a rfl
  | error e =>
    intro s r s' hRun
    cases hRun
    exact .inl ⟨rfl, e, rfl⟩

theorem require_seq {c : Prop} [Decidable c] {e : ε} {k : Unit → Prog σ ε β}
    (hk : c → Tries R sure (k ())) : Tries R sure (Prog.require c e >>= k) := by
  unfold Prog.require
  split
  · exact hk ‹c›
  · intro s r s' hRun
    cases hRun
    exact .inl ⟨rfl, e, rfl⟩

variable {f : σ → Except ε (α × σ)}

theorem atomic (hf : ∀ s a s', f s = .ok (a, s') → R s s') : Tries R sure (Prog.atomic f) := by
  intro s r s' hRun
  rw [Prog.run_atomic] at hRun
  cases hOk : f s with
  | ok x =>
    rw [hOk] at hRun
    cases hRun
    exact .inr ⟨hf s _ _ hOk, .inl ⟨_, rfl⟩⟩
  | error e =>
    rw [hOk] at hRun
    cases hRun
    exact .inl ⟨rfl, e, rfl⟩

theorem transact (hf : ∀ s a s', f s = .ok (a, s') → R s s') :
    Tries R (ack ≠ .lost) (transact ack unknown refusal (fun _ => true) f) := by
  cases ack with
  | delivered => exact atomic hf
  | lost =>
    intro s r s' hRun
    rw [Lib.transact, Prog.run_bind, Prog.run_atomic] at hRun
    cases hOk : f s with
    | ok x =>
      -- the outcome is not known, so only the move has to be right
      rw [hOk] at hRun
      cases hRun
      exact .inr ⟨hf s _ _ hOk, .inr fun hNe => hNe rfl⟩
    | error e =>
      rw [hOk] at hRun
      cases hRun
      exact .inl ⟨rfl, e, rfl⟩
  | rolledBack => exact atomic fun s a s' hOk => hf s a s' (rolledBack_ok (fun _ => true) hOk)
  | refused =>
    intro s r s' hRun
    cases hRun
    exact .inl ⟨rfl, refusal, rfl⟩

end Tries

end EternalAI.Lib
