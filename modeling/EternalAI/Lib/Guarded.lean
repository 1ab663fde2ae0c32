import EternalAI.Lib.Pool

/-!
# Programs with a rely and a guarantee of their own

`Safe` of `Lib/Pool.lean` measures every program of a pool by one relation.
Some facts are about what a single program has done so far ("it has sent this
once"), and they survive only because the *other* programs leave its own part
of the state alone. For these a program has a relation of its own to rely on
and another one to guarantee.

`Guarded rely guar Q p s` says that from the state `s` on every action of `p`
is within `guar`, provided that the state changes within `rely` before each of
them, and that `Q` holds where `p` ends, by returning or by raising.

* `Guarded.seq`, `Guarded.attempt`, `Guarded.read`, `Guarded.atomic` — one rule
  for each way to build a program.
* `PoolRun.guarded` — in a pool where each program relies on no more than what
  the others guarantee, every step is one of the environment, a crash, or
  within the guarantee of some program.
* `TurnRun`, `TurnRun.pool`, `TurnRun.guarded` — pools whose programs take
  turns.
-/

namespace EternalAI.Lib

open Function

variable {σ ε α β : Type}

/-- From `s` on, `p` acts within `guar` and ends only where `Q` holds, as long
as the state changes within `rely` before each action. -/
def Guarded (rely guar : σ → σ → Prop) (Q : Except ε α → σ → Prop) : Prog σ ε α → σ → Prop
  | .ret a, s => Q (.ok a) s
  | .raise e, s => Q (.error e) s
  | .act upd next, s => ∀ s', rely s s' →
      guar s' (upd s') ∧ Guarded rely guar Q (next s') (upd s')

variable {s' : σ}

namespace Guarded

variable {rely guar : σ → σ → Prop} {Q : Except ε α → σ → Prop} {s : σ}

variable {p : Prog σ ε α} {P : Except ε α → σ → Prop}

/-- A program followed by another: the second starts where the first returns,
and the whole ends where the first raises. -/
theorem seq {R : Except ε β → σ → Prop} {k : α → Prog σ ε β} (hp : Guarded rely guar P p s)
    (hOk : ∀ a s', P (.ok a) s' → Guarded rely guar R (k a) s')
    (hErr : ∀ e s', P (.error e) s' → R (.error e) s') : Guarded rely guar R (p >>= k) s := by
  induction p generalizing s with
  | ret a => exact hOk a s hp
  | raise e => exact hErr e s hp
  | act upd next ih =>
    intro s' hRely
    obtain ⟨hGuar, hNext⟩ := hp s' hRely
    exact ⟨hGuar, ih s' hNext⟩

theorem attempt {R : Except ε (Except ε α) → σ → Prop}
    (hp : Guarded rely guar (fun r s' => R (.ok r) s') p s) : Guarded rely guar R p.attempt s := by
  induction p generalizing s with
  | ret a | raise e => exact hp
  | act upd next ih =>
    intro s' hRely
    obtain ⟨hGuar, hNext⟩ := hp s' hRely
    exact ⟨hGuar, ih s' hNext⟩

theorem imp (hp : Guarded rely guar P p s) (hPQ : ∀ r s', P r s' → Q r s') :
    Guarded rely guar Q p s := by
  have hSeq : Guarded rely guar Q (p >>= .ret) s :=
    hp.seq (fun _ s' hP => hPQ _ s' hP) fun _ s' hP => hPQ _ s' hP
  rwa [Prog.bind_ret_right] at hSeq

/-- Interference before the first action does no harm, as long as the
postcondition is stable. -/
theorem mono (hp : Guarded rely guar Q p s) (hTrans : ∀ a b c, rely a b → rely b c → rely a c)
    (hRely : rely s s') (hStable : ∀ r, Q r s → Q r s') : Guarded rely guar Q p s' := by
  cases p with
  | ret a | raise e => exact hStable _ hp
  | act upd next => exact fun s'' hRely' => hp s'' (hTrans s s' s'' hRely hRely')

theorem ofExcept {x : Except ε α} (hx : Q x s) : Guarded rely guar Q (Prog.ofExcept x) s := by
  cases x <;> exact hx

theorem require {c : Prop} [Decidable c] {R : Except ε Unit → σ → Prop} (hTrue : c → R (.ok ()) s)
    (hFalse : ¬c → R (.error e) s) : Guarded rely guar R (Prog.require c e) s := by
  unfold Prog.require
  split
  · exact hTrue ‹_›
  · exact hFalse ‹_›

section Steps

variable (hRefl : ∀ s, guar s s)

include hRefl

theorem read {f : σ → α} (hf : ∀ s', rely s s' → Q (.ok (f s')) s') :
    Guarded rely guar Q (Prog.read f : Prog σ ε α) s :=
  fun s' hRely => ⟨hRefl s', hf s' hRely⟩

theorem atomic {f : σ → Except ε (α × σ)}
    (hOk : ∀ s', rely s s' → ∀ a s'', f s' = .ok (a, s'') → guar s' s'' ∧ Q (.ok a) s'')
    (hErr : ∀ s', rely s s' → ∀ e, f s' = .error e → Q (.error e) s') :
    Guarded rely guar Q (Prog.atomic f) s := by
  intro s' hRely
  cases hf : f s' with
  | ok r =>
    obtain ⟨hGuar, hQ⟩ := hOk s' hRely r.1 r.2 hf
    rw [Prog.committed_ok hf]
    refine ⟨hGuar, ofExcept ?_⟩
    rw [hf]
    exact hQ
  | error e =>
    rw [Prog.committed_error hf]
    refine ⟨hRefl s', ofExcept ?_⟩
    rw [hf]
    exact hErr s' hRely e hf

end Steps

end Guarded

/-! ## Pools of guarded programs -/

/-- A step from the last state of a history, within a relation on states. -/
def Moves (R : σ → σ → Prop) : List σ → σ → Prop
  | [], _ => False
  | s :: _, s' => R s s'

/-- What is known about a place of the pool: it is still fresh, or its program
keeps to its guarantee from here on. -/
def Standing (rely guar : σ → σ → Prop) (fresh : σ → Prop) :
    Option (Prog σ ε Unit) → σ → Prop
  | none, s => fresh s
  | some p, s => Guarded rely guar (fun _ _ => True) p s

variable {guar : σ → σ → Prop}

theorem Standing.mono {rely : σ → σ → Prop} {fresh : σ → Prop}
    (hTrans : ∀ a b c, rely a b → rely b c → rely a c)
    (hFresh : ∀ s s', rely s s' → fresh s → fresh s') {q : Option (Prog σ ε Unit)} {s : σ}
    (hRely : rely s s') (hq : Standing rely guar fresh q s) : Standing rely guar fresh q s' := by
  cases q with
  | none => exact hFresh s s' hRely hq
  | some p => exact Guarded.mono hq hTrans hRely fun _ _ => trivial

/--
**Adequacy for guarded programs.** Every program relies on no more than the
environment, a crash and the guarantees of the other programs leave intact; a
program starts in a state that is `fresh` for its number, which is stable under
what that program relies on. Then every step of the pool is one of the
environment, a crash, or within the guarantee of some program.
-/
theorem PoolRun.guarded {init : σ → Prop} {env : σ → σ → Prop}
    {calls : Nat → Prog σ ε Unit → Prop} {crash : Nat → σ → σ}
    (rely guar : Nat → σ → σ → Prop) (fresh : Nat → σ → Prop)
    (hTrans : ∀ i a b c, rely i a b → rely i b c → rely i a c) (hRefl : ∀ i s, rely i s s)
    (hEnv : ∀ i s s', env s s' → rely i s s') (hCrash : ∀ i j s, rely i s (crash j s))
    (hGuar : ∀ i j s s', i ≠ j → guar j s s' → rely i s s')
    (hInit : ∀ i s, init s → fresh i s) (hFresh : ∀ i s s', rely i s s' → fresh i s → fresh i s')
    (hCalls : ∀ i p, calls i p → ∀ s, fresh i s →
      Guarded (rely i) (guar i) (fun _ _ => True) p s)
    {h : List σ} {ps : Procs σ ε} (hPool : PoolRun init env calls crash h ps) :
    Run init (Moves fun s s' => env s s' ∨ (∃ j, s' = crash j s) ∨ ∃ j, guar j s s') h ∧
      ∀ s ∈ h.head?, ∀ i, Standing (rely i) (guar i) (fresh i) (ps i) s := by
  induction hPool with
  | start hs =>
    refine ⟨.start hs, ?_⟩
    rintro s hMem i
    cases hMem
    exact hInit i _ hs
  | @env s s' t ps _ hst ih =>
    obtain ⟨hRun, hProcs⟩ := ih
    refine ⟨.step hRun (.inl hst), ?_⟩
    rintro x hMem i
    cases hMem
    exact (hProcs s rfl i).mono (hTrans i) (hFresh i) (hEnv i _ _ hst)
  | @spawn h ps i p _ hNone hp ih =>
    obtain ⟨hRun, hProcs⟩ := ih
    refine ⟨hRun, fun s hMem => ?_⟩
    refine (forall_update_iff ps fun j o => Standing (rely j) (guar j) (fresh j) o s).mpr
      ⟨hCalls i p hp s ?_, fun j _ => hProcs s hMem j⟩
    -- the place was free, so nothing has been done in it
    have hi := hProcs s hMem i
    rwa [hNone] at hi
  | @act s t ps i upd next _ hp ih =>
    obtain ⟨hRun, hProcs⟩ := ih
    have hi := hProcs s rfl i
    rw [hp] at hi
    obtain ⟨hStep, hNext⟩ := hi s (hRefl i s)
    -- What process `i` guarantees of its step is what all others rely on.
    refine ⟨.step hRun (.inr (.inr ⟨i, hStep⟩)), ?_⟩
    rintro x hMem
    cases hMem
    refine (forall_update_iff ps fun j o => Standing (rely j) (guar j) (fresh j) o _).mpr
      ⟨hNext, fun j hij => ?_⟩
    exact (hProcs s rfl j).mono (hTrans j) (hFresh j) (hGuar j i _ _ hij hStep)
  | @crash s t ps i p _ _ ih =>
    obtain ⟨hRun, hProcs⟩ := ih
    refine ⟨.step hRun (.inr (.inl ⟨i, rfl⟩)), ?_⟩
    rintro x hMem
    cases hMem
    refine (forall_update_iff ps fun j o => Standing (rely j) (guar j) (fresh j) o _).mpr
      ⟨trivial, fun j _ => ?_⟩
    exact (hProcs s rfl j).mono (hTrans j) (hFresh j) (hCrash j i s)

/-! ## Programs that take turns -/

/-- Runs of a pool in which a program starts only when no other one is under
way, none dies, and every action is taken in an `allowed` state. The number is
the one the next program gets. -/
inductive TurnRun (init : σ → Prop) (env : σ → σ → Prop) (calls : Nat → Prog σ ε Unit → Prop)
    (allowed : σ → Prop) : List σ → Nat → Option (Prog σ ε Unit) → Prop
  | start {s : σ} : init s → TurnRun init env calls allowed [s] 0 none
  | env {s s' : σ} {t : List σ} {n : Nat} {p : Option (Prog σ ε Unit)} :
      TurnRun init env calls allowed (s :: t) n p → env s s' →
      TurnRun init env calls allowed (s' :: s :: t) n p
  | spawn {h : List σ} {n : Nat} {p : Prog σ ε Unit} :
      TurnRun init env calls allowed h n none → calls n p →
      TurnRun init env calls allowed h (n + 1) (some p)
  | act {s : σ} {t : List σ} {n : Nat} {upd : σ → σ} {next : σ → Prog σ ε Unit} :
      TurnRun init env calls allowed (s :: t) n (some (.act upd next)) → allowed s →
      TurnRun init env calls allowed (upd s :: s :: t) n (some (next s))
  | returned {h : List σ} {n : Nat} :
      TurnRun init env calls allowed h n (some (.ret ())) → TurnRun init env calls allowed h n none
  | raised {h : List σ} {n : Nat} {e : ε} :
      TurnRun init env calls allowed h n (some (.raise e)) →
      TurnRun init env calls allowed h n none

namespace TurnRun

variable {init : σ → Prop} {env : σ → σ → Prop} {calls : Nat → Prog σ ε Unit → Prop}
  {allowed : σ → Prop} {h : List σ} {n : Nat} {p : Option (Prog σ ε Unit)}

theorem mono {calls' : Nat → Prog σ ε Unit → Prop} (hCalls : ∀ i q, calls i q → calls' i q)
    (hRun : TurnRun init env calls allowed h n p) : TurnRun init env calls' allowed h n p := by
  induction hRun with
  | start hs => exact .start hs
  | env _ hst ih => exact .env ih hst
  | spawn _ hp ih => exact .spawn ih (hCalls _ _ hp)
  | act _ hAllowed ih => exact .act ih hAllowed
  | returned _ ih => exact .returned ih
  | raised _ ih => exact .raised ih

/-- Taking turns is one way for a pool to run. -/
theorem pool (crash : Nat → σ → σ) (hRun : TurnRun init env calls allowed h n p) :
    ∃ ps, PoolRun init env calls crash h ps ∧ (∀ j, n ≤ j → ps j = none) ∧
      ∀ q, p = some q → ∃ i, i < n ∧ ps i = some q := by
  induction hRun with
  | start hs => exact ⟨_, .start hs, fun _ _ => rfl, fun q hq => nomatch hq⟩
  | env _ hst ih =>
    obtain ⟨ps, hPool, hFree, hOwn⟩ := ih
    exact ⟨ps, hPool.env hst, hFree, hOwn⟩
  | @spawn h n p _ hp ih =>
    obtain ⟨ps, hPool, hFree, -⟩ := ih
    refine ⟨_, hPool.spawn (hFree n (Nat.le_refl n)) hp, fun j hj => ?_, ?_⟩
    · rw [update_of_ne (by omega)]
      exact hFree j (by omega)
    · rintro q hq
      cases hq
      exact ⟨n, Nat.lt_succ_self n, update_self ..⟩
  | @act s t n upd next _ _ ih =>
    obtain ⟨ps, hPool, hFree, hOwn⟩ := ih
    obtain ⟨i, hi, hps⟩ := hOwn _ rfl
    refine ⟨_, hPool.act hps, fun j hj => ?_, ?_⟩
    · rw [update_of_ne (by omega)]
      exact hFree j hj
    · rintro q hq
      cases hq
      exact ⟨i, hi, update_self ..⟩
  | returned _ ih | raised _ ih =>
    obtain ⟨ps, hPool, hFree, -⟩ := ih
    exact ⟨ps, hPool, hFree, fun q hq => nomatch hq⟩

/--
**Adequacy for programs that take turns.** `I` holds initially, the environment
keeps it, and every program that starts where `I` holds ends where `I` holds,
relying on nothing but the environment and on acting in `allowed` states. Then
`I` holds whenever no program is under way, and every step in between is within
the guarantee.
-/
theorem guarded (guar : σ → σ → Prop) (I : σ → Prop) (hRefl : ∀ s, env s s)
    (hTrans : ∀ a b c, env a b → env b c → env a c) (hInit : ∀ s, init s → I s)
    (hEnv : ∀ s s', env s s' → I s → I s')
    (hCalls : ∀ i p, calls i p → ∀ s, I s →
      Guarded (fun s s' => env s s' ∧ allowed s') guar (fun _ => I) p s)
    (hRun : TurnRun init env calls allowed h n p) :
    Run init (Moves fun s s' => env s s' ∨ guar s s') h ∧
      ∀ s ∈ h.head?, match p with
        | none => I s
        | some p => ∃ s₀, env s₀ s ∧
            Guarded (fun s s' => env s s' ∧ allowed s') guar (fun _ => I) p s₀ := by
  induction hRun with
  | start hs =>
    refine ⟨.start hs, ?_⟩
    rintro s hMem
    cases hMem
    exact hInit _ hs
  | @env s s' t n p _ hst ih =>
    obtain ⟨hRun, hOwn⟩ := ih
    refine ⟨.step hRun (.inl hst), ?_⟩
    rintro x hMem
    cases hMem
    have hs := hOwn s rfl
    cases p with
    | none => exact hEnv s _ hst hs
    | some p =>
      obtain ⟨s₀, hBefore, hp⟩ := hs
      exact ⟨s₀, hTrans _ _ _ hBefore hst, hp⟩
  | @spawn h n p _ hp ih =>
    obtain ⟨hRun, hOwn⟩ := ih
    exact ⟨hRun, fun s hMem => ⟨s, hRefl s, hCalls n p hp s (hOwn s hMem)⟩⟩
  | @act s t n upd next _ hAllowed ih =>
    obtain ⟨hRun, hOwn⟩ := ih
    -- since its last action only the environment has changed the state
    obtain ⟨s₀, hBefore, hp⟩ := hOwn s rfl
    obtain ⟨hStep, hNext⟩ := hp s ⟨hBefore, hAllowed⟩
    refine ⟨.step hRun (.inr hStep), ?_⟩
    rintro x hMem
    cases hMem
    exact ⟨_, hRefl _, hNext⟩
  | returned _ ih | raised _ ih =>
    obtain ⟨hRun, hOwn⟩ := ih
    refine ⟨hRun, fun s hMem => ?_⟩
    obtain ⟨s₀, hBefore, hI⟩ := hOwn s hMem
    exact hEnv s₀ s hBefore hI

/-- A program may be executed to its end without interruption, as long as what
it guarantees keeps the state allowed. -/
theorem alone {Q : Except ε Unit → σ → Prop} {B : σ → Prop} (hRefl : ∀ s, env s s)
    (hB : ∀ s, B s → allowed s) (hGuar : ∀ s s', guar s s' → B s → B s') (q : Prog σ ε Unit) :
    ∀ {s : σ} {t : List σ},
      TurnRun init env calls allowed (s :: t) n (some q) →
      Guarded (fun s s' => env s s' ∧ allowed s') guar Q q s → B s →
      TurnRun init env calls allowed (q.trail s t) n none := by
  induction q with
  | ret a => exact fun hRun _ _ => .returned hRun
  | raise e => exact fun hRun _ _ => .raised hRun
  | act upd next ih =>
    intro s t hRun hq hs
    obtain ⟨hStep, hNext⟩ := hq s ⟨hRefl s, hB s hs⟩
    exact ih s (.act hRun (hB s hs)) hNext (hGuar _ _ hStep hs)

end TurnRun

end EternalAI.Lib
