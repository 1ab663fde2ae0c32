import EternalAI.Lib.Commit

/-!
# Programs that change nothing

`Idle init step Q p h` says that the program `p`, at the history `h` and from
then on, leaves the state alone with each of its actions, **whatever run of
`step` is interposed before it**, and that it returns only values in `Q`. With
an empty `Q` the program cannot succeed any more.

* `Idle.seq`, `Idle.ofExcept_seq`, `Idle.read`, `Idle.transact` — one rule for
  each way to build a program.
-/

namespace EternalAI.Lib

variable {σ ε α β : Type}

/-- The program changes nothing, and returns only what is in `Q`. -/
def Idle (init : σ → Prop) (step : List σ → σ → Prop) (Q : α → Prop) :
    Prog σ ε α → List σ → Prop
  | .ret a, _ => Q a
  | .raise _, _ => True
  | .act upd next, h => ∀ s t, h <:+ s :: t → Run init step (s :: t) →
      upd s = s ∧ Idle init step Q (next s) (s :: s :: t)

namespace Idle

variable {init : σ → Prop} {step : List σ → σ → Prop} {Q : α → Prop} {R : β → Prop} {h : List σ}

variable {k : α → Prog σ ε β} {p : Prog σ ε α}

/-- A program followed by another that is idle wherever the first returns. -/
theorem seq (hp : Idle init step Q p h) (hk : ∀ a h', h <:+ h' → Q a → Idle init step R (k a) h') :
    Idle init step R (p >>= k) h := by
  induction p generalizing h with
  | ret a => exact hk a h List.suffix_rfl hp
  | raise e => exact trivial
  | act upd next ih =>
    intro s t hSuf hRun
    obtain ⟨hSame, hNext⟩ := hp s t hSuf hRun
    have hLong : h <:+ s :: s :: t := hSuf.trans (List.suffix_cons _ _)
    exact ⟨hSame, ih s hNext fun a h' hExt hQ => hk a h' (hLong.trans hExt) hQ⟩

/-- What follows a program that does not return is never reached. -/
theorem stuck (hp : Idle init step (fun _ => False) p h) : Idle init step R (p >>= k) h :=
  hp.seq fun _ _ _ hNone => hNone.elim

variable {x : Except ε α}

theorem ofExcept (hx : ∀ a, x = .ok a → Q a) : Idle init step Q (Prog.ofExcept x) h := by
  cases x with
  | ok a => exact hx a rfl
  | error e => exact trivial

theorem ofExcept_seq (hk : ∀ a, x = .ok a → Idle init step R (k a) h) :
    Idle init step R (Prog.ofExcept x >>= k) h := by
  cases x with
  | ok a => exact hk a rfl
  | error e => exact trivial

theorem read {f : σ → α} (hf : ∀ s t, h <:+ s :: t → Run init step (s :: t) → Q (f s)) :
    Idle init step Q (Prog.read f : Prog σ ε α) h :=
  fun s t hSuf hRun => ⟨rfl, hf s t hSuf hRun⟩

variable {f : σ → Except ε (α × σ)}

section

variable
  (hf : ∀ s t, h <:+ s :: t → Run init step (s :: t) → ∀ a s', f s = .ok (a, s') → s' = s ∧ Q a)

include hf

theorem atomic : Idle init step Q (Prog.atomic f) h := by
  intro s t hSuf hRun
  cases hfs : f s with
  | ok r =>
    obtain ⟨hSame, hQ⟩ := hf s t hSuf hRun r.1 r.2 hfs
    refine ⟨(Prog.committed_ok hfs).trans hSame, ?_⟩
    show Idle init step Q (Prog.ofExcept ((f s).map Prod.fst)) _
    rw [hfs]
    exact hQ
  | error e =>
    refine ⟨Prog.committed_error hfs, ?_⟩
    show Idle init step Q (Prog.ofExcept ((f s).map Prod.fst)) _
    rw [hfs]
    exact trivial

/-- A transaction whose commits change nothing, whatever becomes of them. -/
theorem transact {ack : Ack} {unknown refusal : ε} {wrote : α → Bool} :
    Idle init step Q (Lib.transact ack unknown refusal wrote f) h := by
  cases ack with
  | delivered => exact atomic hf
  | lost =>
    refine seq (atomic hf) fun a _ _ hQ => ?_
    by_cases hWrote : wrote a = false
    · simpa [Prog.require, hWrote, Idle] using hQ
    · simp [Prog.require, hWrote, Idle]
  | rolledBack =>
    exact atomic fun s t hSuf hRun a s' hOk => hf s t hSuf hRun a s' (rolledBack_ok wrote hOk)
  | refused => exact trivial

end

end Idle

end EternalAI.Lib
