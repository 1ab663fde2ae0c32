import EternalAI.Lib.Prog
import EternalAI.Lib.Run

/-!
# Interleavings of programs, and how to reason about them

A *pool* holds any number of running programs over one shared state. In one
step some program performs its next action, a new program is started, a
program dies (`crash` says what its death does to the shared state), or the
environment changes the state on its own. `PoolRun` lists the shared states of
such a run; nothing is assumed about the order of the steps.

The proof method is rely/guarantee over histories. Fix a relation `step` that
every action is to respect. `Safe init step Q p h` says that the program `p`,
at the history `h` and from then on, acts only within `step`, **whatever run of
`step` is interposed before each of its actions**, and that it satisfies `Q`
where it returns. Facts about a past state of the history survive
interposition, which is what makes a value read earlier usable later.

* `Safe.seq`, `Safe.read`, `Safe.atomic`, `Safe.andFinally` — one rule for each
  way to build a program.
* `Prog.Moves` — a program each of whose actions is a step, whatever it has seen.
* `PoolRun.inTurn` — programs and changes that come one after the other.
* `PoolRun.refines` — if every program that may be started is safe, then the
  shared states of every interleaving, crashes included, form a run of `step`.
-/

namespace EternalAI.Lib

open List Function

variable {σ ε α β : Type}

/-! ## Pools -/

abbrev Procs (σ ε : Type) := Nat → Option (Prog σ ε Unit)

/-- Interleaved runs: the shared states so far, newest first, with the programs
started so far and what is left of them. A place is used for one program only,
also when that program died. -/
inductive PoolRun (init : σ → Prop) (env : σ → σ → Prop) (calls : Nat → Prog σ ε Unit → Prop)
    (crash : Nat → σ → σ) : List σ → Procs σ ε → Prop
  | start {s : σ} : init s → PoolRun init env calls crash [s] fun _ => none
  | env {s s' : σ} {t : List σ} {ps : Procs σ ε} :
      PoolRun init env calls crash (s :: t) ps → env s s' →
      PoolRun init env calls crash (s' :: s :: t) ps
  | spawn {h : List σ} {ps : Procs σ ε} {i : Nat} {p : Prog σ ε Unit} :
      PoolRun init env calls crash h ps → ps i = none → calls i p →
      PoolRun init env calls crash h (update ps i (some p))
  | act {s : σ} {t : List σ} {ps : Procs σ ε} {i : Nat} {upd : σ → σ}
      {next : σ → Prog σ ε Unit} :
      PoolRun init env calls crash (s :: t) ps → ps i = some (.act upd next) →
      PoolRun init env calls crash (upd s :: s :: t) (update ps i (some (next s)))
  | crash {s : σ} {t : List σ} {ps : Procs σ ε} {i : Nat} {p : Prog σ ε Unit} :
      PoolRun init env calls crash (s :: t) ps → ps i = some p →
      PoolRun init env calls crash (crash i s :: s :: t) (update ps i (some (.ret ())))

/-! ## Safety of one program under interference -/

/-- At the history `h` and from then on, `p` acts only within `step`, and
returns only where `Q` holds. -/
def Safe (init : σ → Prop) (step : List σ → σ → Prop) (Q : α → List σ → Prop) :
    Prog σ ε α → List σ → Prop
  | .ret a, h => Q a h
  | .raise _, _ => True
  | .act upd next, h => ∀ s t, h <:+ s :: t → Run init step (s :: t) →
      step (s :: t) (upd s) ∧ Safe init step Q (next s) (upd s :: s :: t)

variable {p : Prog σ ε α} {k : α → Prog σ ε β} {f : σ → Except ε (α × σ)}

namespace Safe

variable {init : σ → Prop} {step : List σ → σ → Prop} {Q : α → List σ → Prop} {h : List σ}

@[simp] theorem ret_iff {a : α} :
    Safe init step Q (.ret a : Prog σ ε α) h ↔ Q a h := Iff.rfl

variable {e : ε}

@[simp] theorem raise : Safe init step Q (.raise e : Prog σ ε α) h := trivial

variable {P : α → List σ → Prop} {R : β → List σ → Prop}

/-- A program followed by another: the second is safe wherever the first may
return. The history there extends the present one. -/
theorem seq (hp : Safe init step P p h)
    (hk : ∀ a h', h <:+ h' → P a h' → Safe init step R (k a) h') :
    Safe init step R (p >>= k) h := by
  induction p generalizing h with
  | ret a => exact hk a h suffix_rfl hp
  | raise e => exact trivial
  | act upd next ih =>
    intro s t hSuf hRun
    obtain ⟨hStep, hNext⟩ := hp s t hSuf hRun
    have hLong : h <:+ upd s :: s :: t := hSuf.trans (suffix_cons _ _)
    exact ⟨hStep, ih s hNext fun a h' hExt hP => hk a h' (hLong.trans hExt) hP⟩

/-- What follows relies on nothing that the first program has done. -/
theorem andThen (hp : Safe init step (fun _ _ => True) p h)
    (hk : ∀ a {h'}, Safe init step R (k a) h') : Safe init step R (p >>= k) h :=
  seq hp fun a _ _ _ => hk a

/-- A program whose result nobody waits for. -/
theorem ended (hp : Safe init step (fun _ _ => True) p h) :
    Safe init step (fun _ _ => True) (p >>= fun _ => pure ()) h :=
  andThen hp fun _ => trivial

theorem imp (hp : Safe init step P p h) (hPQ : ∀ a h', h <:+ h' → P a h' → Q a h') :
    Safe init step Q p h := by
  -- a weaker postcondition is what a last step that does nothing makes of it
  have hSeq : Safe init step Q (p >>= .ret) h := hp.seq hPQ
  rwa [Prog.bind_ret_right] at hSeq

/-- Interference before the first action does no harm, as long as the
postcondition is stable. -/
theorem mono (hp : Safe init step Q p h) {h' : List σ} (hExt : h <:+ h')
    (hStable : ∀ a, Q a h → Q a h') : Safe init step Q p h' := by
  cases p with
  | ret a => exact hStable a hp
  | raise e => exact trivial
  | act upd next =>
    intro s t hSuf hRun
    exact hp s t (hExt.trans hSuf) hRun

theorem attempt {R : Except ε α → List σ → Prop} (hp : Safe init step P p h)
    (hOk : ∀ a h', h <:+ h' → P a h' → R (.ok a) h') (hErr : ∀ e h', h <:+ h' → R (.error e) h') :
    Safe init step R p.attempt h := by
  induction p generalizing h with
  | ret a => exact hOk a h suffix_rfl hp
  | raise e => exact hErr e h suffix_rfl
  | act upd next ih =>
    intro s t hSuf hRun
    obtain ⟨hStep, hNext⟩ := hp s t hSuf hRun
    have hLong : h <:+ upd s :: s :: t := hSuf.trans (suffix_cons _ _)
    exact ⟨hStep, ih s hNext (fun a h' hExt hP => hOk a h' (hLong.trans hExt) hP)
      fun e h' hExt => hErr e h' (hLong.trans hExt)⟩

variable {x : Except ε α}

theorem ofExcept (hx : ∀ a, x = .ok a → Q a h) : Safe init step Q (Prog.ofExcept x) h := by
  cases x with
  | ok a => exact hx a rfl
  | error e => exact trivial

/-- A computation without state, followed by the rest of the program. -/
theorem ofExcept_seq (hk : ∀ a, x = .ok a → Safe init step R (k a) h) :
    Safe init step R (Prog.ofExcept x >>= k) h := by
  cases x with
  | ok a => exact hk a rfl
  | error e => exact trivial

variable {c : Prop}

/-- A check: what follows may rely on it. -/
theorem require [Decidable c] {R : Unit → List σ → Prop} (hc : c → R () h) :
    Safe init step R (Prog.require c e) h := by
  by_cases hcond : c
  · simpa [Prog.require, hcond] using hc hcond
  · simp [Prog.require, hcond]

theorem require_seq [Decidable c] (hp : c → Safe init step Q p h) :
    Safe init step Q (Prog.require c e >>= fun _ => p) h := by
  by_cases hcond : c
  · simpa [Prog.require, hcond] using hp hcond
  · simp [Prog.require, hcond]

theorem ite [Decidable c] {q : Prog σ ε α} (hp : c → Safe init step Q p h)
    (hq : ¬c → Safe init step Q q h) : Safe init step Q (if c then p else q) h := by
  split
  · exact hp ‹_›
  · exact hq ‹_›

section Steps

variable (hRefl : ∀ s t, step (s :: t) s)

include hRefl

/-- An observation: what was read is what the last state of some extension of
the history shows. -/
theorem read {f : σ → α}
    (hf : ∀ s t, h <:+ s :: t → Run init step (s :: t) → Q (f s) (s :: s :: t)) :
    Safe init step Q (Prog.read f : Prog σ ε α) h := by
  intro s t hSuf hRun
  exact ⟨hRefl s t, hf s t hSuf hRun⟩

/-- A transaction: the commit is a step and establishes the postcondition. -/
theorem atomic (hf : ∀ s t, h <:+ s :: t → Run init step (s :: t) → ∀ a s', f s = .ok (a, s') →
      step (s :: t) s' ∧ Q a (s' :: s :: t)) : Safe init step Q (Prog.atomic f) h := by
  intro s t hSuf hRun
  cases hfs : f s with
  | ok r =>
    obtain ⟨hStep, hQ⟩ := hf s t hSuf hRun r.1 r.2 hfs
    rw [Prog.committed_ok hfs]
    refine ⟨hStep, ?_⟩
    show Safe init step Q (Prog.ofExcept ((f s).map Prod.fst)) _
    rw [hfs]
    exact hQ
  | error e =>
    rw [Prog.committed_error hfs]
    refine ⟨hRefl s t, ?_⟩
    show Safe init step Q (Prog.ofExcept ((f s).map Prod.fst)) _
    rw [hfs]
    exact trivial

end Steps

/-- `finally`: the cleanup only has to be safe, it may not rely on how the body
ended. -/
theorem andFinally {body : Prog σ ε α} {cleanup : Prog σ ε Unit}
    (hBody : Safe init step Q body h)
    (hStable : ∀ a h' h'', h' <:+ h'' → Q a h' → Q a h'')
    (hClean : ∀ h', h <:+ h' → Safe init step (fun _ _ => True) cleanup h') :
    Safe init step Q (body.andFinally cleanup) h := by
  refine seq (attempt (R := fun r h' => ∀ a, r = .ok a → Q a h') hBody ?_ ?_) ?_
  · intro a h' _ hQ b hb
    rw [← Except.ok.inj hb]
    exact hQ
  · intro e h' _ a ha
    cases ha
  · intro r h' hExt hr
    refine seq (hClean h' hExt) fun _ h'' hExt' _ => ofExcept fun a ha => ?_
    exact hStable a h' h'' hExt' (hr a ha)

end Safe

/-! ## Programs that need no history -/

/-- Every action of the program moves the state by `R`, whatever it has seen before. -/
def Prog.Moves (R : σ → σ → Prop) : Prog σ ε α → Prop
  | .ret _ => True
  | .raise _ => True
  | .act upd next => ∀ s, R s (upd s) ∧ (next s).Moves R

variable {init : σ → Prop} {step : List σ → σ → Prop}

/-- Such a program is safe where its moves are steps. -/
theorem Safe.of_moves {R : σ → σ → Prop} (hStep : ∀ s t s', R s s' → step (s :: t) s')
    (hp : p.Moves R) (h : List σ) : Safe init step (fun _ _ => True) p h := by
  induction p generalizing h with
  | ret a | raise e => exact trivial
  | act upd next ih =>
    intro s t _ _
    obtain ⟨hMove, hNext⟩ := hp s
    exact ⟨hStep s t _ hMove, ih s hNext _⟩

/-- The program on a part of a larger state. -/
def Prog.within {τ : Type} (get : τ → σ) (set : σ → τ → τ) : Prog σ ε α → Prog τ ε α
  | .ret a => .ret a
  | .raise e => .raise e
  | .act upd next => .act (fun x => set (upd (get x)) x) fun x => (next (get x)).within get set

namespace Prog.Moves

variable {R : σ → σ → Prop} {p : Prog σ ε α}

@[simp] theorem ret {a : α} : (Prog.ret a : Prog σ ε α).Moves R := trivial

@[simp] theorem raise {e : ε} : (Prog.raise e : Prog σ ε α).Moves R := trivial

@[simp] theorem seq (hp : p.Moves R) (hk : ∀ a, (k a).Moves R) : (p >>= k).Moves R := by
  induction p with
  | ret a => exact hk a
  | raise e => exact trivial
  | act upd next ih => exact fun s => ⟨(hp s).1, ih s (hp s).2⟩

@[simp] theorem attempt (hp : p.Moves R) : p.attempt.Moves R := by
  induction p with
  | ret a | raise e => exact trivial
  | act upd next ih => exact fun s => ⟨(hp s).1, ih s (hp s).2⟩

@[simp] theorem ofExcept (x : Except ε α) : (Prog.ofExcept x : Prog σ ε α).Moves R := by
  cases x <;> exact trivial

@[simp] theorem require (c : Prop) [Decidable c] (e : ε) :
    (Prog.require c e : Prog σ ε Unit).Moves R := by
  unfold Prog.require
  split <;> exact trivial

theorem ite {c : Prop} [Decidable c] {q : Prog σ ε α} (hp : p.Moves R) (hq : q.Moves R) :
    (if c then p else q).Moves R := by
  split
  · exact hp
  · exact hq

theorem read (hRefl : ∀ s, R s s) (f : σ → α) : (Prog.read f : Prog σ ε α).Moves R :=
  fun s => ⟨hRefl s, trivial⟩

theorem atomic (hRefl : ∀ s, R s s) (hf : ∀ s a s', f s = .ok (a, s') → R s s') :
    (Prog.atomic f).Moves R := by
  intro s
  refine ⟨?_, ofExcept _⟩
  cases hOk : f s with
  | ok r =>
    rw [Prog.committed_ok hOk]
    exact hf s r.1 r.2 hOk
  | error e =>
    rw [Prog.committed_error hOk]
    exact hRefl s

theorem within {τ : Type} {get : τ → σ} {set : σ → τ → τ} {R' : τ → τ → Prop}
    (hSet : ∀ x s', R (get x) s' → R' x (set s' x)) (hp : p.Moves R) :
    (p.within get set).Moves R' := by
  induction p with
  | ret a | raise e => exact trivial
  | act upd next ih => exact fun x => ⟨hSet x _ (hp (get x)).1, ih (get x) (hp (get x)).2⟩

end Prog.Moves

/-! ## Adequacy -/

variable {calls : Nat → Prog σ ε Unit → Prop}

variable {env : σ → σ → Prop} {crash : Nat → σ → σ} {h : List σ} {ps : Procs σ ε}

/-- What holds of the program in one place and of those in the others holds of the pool. -/
theorem forall_update {P : Prog σ ε Unit → Prop} {i : Nat} {p : Prog σ ε Unit} (hp : P p)
    (hPool : ∀ j q, ps j = some q → P q) : ∀ j q, update ps i (some p) j = some q → P q :=
  (forall_update_iff ps fun _ o => ∀ q, o = some q → P q).mpr
    ⟨fun _ hq => Option.some.inj hq ▸ hp, fun j _ => hPool j⟩

/--
**Adequacy.** If the environment's changes and the effects of a crash are
steps, and every program that may be started is safe from every run on, then
the shared states of every interleaving form a run of `step`.
-/
theorem PoolRun.refines (hEnv : ∀ s t s', env s s' → step (s :: t) s')
    (hCrash : ∀ i s t, step (s :: t) (crash i s))
    (hCalls : ∀ i p, calls i p → ∀ h, Run init step h → Safe init step (fun _ _ => True) p h)
    (hPool : PoolRun init env calls crash h ps) :
    Run init step h ∧ ∀ i p, ps i = some p → Safe init step (fun _ _ => True) p h := by
  induction hPool with
  | start hs => exact ⟨.start hs, fun i p hp => nomatch hp⟩
  | @env s s' t ps _ hst ih =>
    obtain ⟨hRun, hSafe⟩ := ih
    refine ⟨.step hRun (hEnv s t s' hst), fun i p hp => ?_⟩
    exact (hSafe i p hp).mono (suffix_cons _ _) fun _ _ => trivial
  | @spawn h ps i p _ _ hp ih =>
    obtain ⟨hRun, hSafe⟩ := ih
    exact ⟨hRun, forall_update (hCalls i p hp h hRun) hSafe⟩
  | @act s t ps i upd next _ hp ih =>
    obtain ⟨hRun, hSafe⟩ := ih
    -- nothing is interposed: the program acts on the last state of the run itself
    obtain ⟨hStep, hNext⟩ := hSafe i _ hp s t suffix_rfl hRun
    -- for the others the step is interference
    refine ⟨.step hRun hStep, forall_update hNext fun j q hq => ?_⟩
    exact (hSafe j q hq).mono (suffix_cons _ _) fun _ _ => trivial
  | @crash s t ps i p _ _ ih =>
    obtain ⟨hRun, hSafe⟩ := ih
    refine ⟨.step hRun (hCrash i s t), forall_update trivial fun j q hq => ?_⟩
    exact (hSafe j q hq).mono (suffix_cons _ _) fun _ _ => trivial

/-- A program of the pool may be executed to its end without interruption. -/
theorem PoolRun.alone (i : Nat) (p : Prog σ ε Unit) :
    ∀ {s : σ} {t : List σ} {ps : Procs σ ε}, PoolRun init env calls crash (s :: t) ps →
      ps i = some p → ∃ ps', PoolRun init env calls crash (p.trail s t) ps' ∧
        ∀ j, j ≠ i → ps' j = ps j := by
  induction p with
  | ret a | raise e => exact fun hPool _ => ⟨_, hPool, fun _ _ => rfl⟩
  | act upd next ih =>
    intro s t ps hPool hp
    obtain ⟨ps', hPool', hSame⟩ := ih s (hPool.act hp) (update_self ..)
    refine ⟨ps', hPool', fun j hj => ?_⟩
    rw [hSame j hj, update_of_ne hj]

/-- A program may be started in a free place and executed to its end. -/
theorem PoolRun.call (hPool : PoolRun init env calls crash h ps) (i : Nat)
    (hFree : ∀ j, i ≤ j → ps j = none) {p : Prog σ ε Unit} (hCall : calls i p) :
    ∃ ps', PoolRun init env calls crash (p.after h) ps' ∧ ∀ j, i < j → ps' j = none := by
  have hSpawn := hPool.spawn (hFree i (Nat.le_refl i)) hCall
  cases h with
  | nil => exact ⟨_, hSpawn, fun j hj => by
      rw [update_of_ne (Nat.ne_of_gt hj)]
      exact hFree j (Nat.le_of_lt hj)⟩
  | cons s t =>
    obtain ⟨ps', hRun, hSame⟩ := PoolRun.alone i p hSpawn (update_self ..)
    refine ⟨ps', hRun, fun j hj => ?_⟩
    rw [hSame j (Nat.ne_of_gt hj), update_of_ne (Nat.ne_of_gt hj)]
    exact hFree j (Nat.le_of_lt hj)

/-- A program of the pool may die after `n` actions. -/
theorem PoolRun.dies {i : Nat} {p : Prog σ ε Unit} (n : Nat)
    (hPool : PoolRun init env calls crash h ps) (hp : ps i = some p) :
    ∃ ps', PoolRun init env calls crash (p.dies (crash i) n h) ps' := by
  cases h with
  | nil => exact ⟨ps, by simpa [Prog.dies] using hPool⟩
  | cons s t =>
    induction p generalizing n s t ps with
    | ret a | raise e => cases n <;> exact ⟨_, hPool.crash hp⟩
    | act upd next ih =>
      cases n with
      | zero => exact ⟨_, hPool.crash hp⟩
      | succ n => exact ih s n (update_self ..) _ _ (hPool.act hp)

/-- Something that happens without interruption: a program is executed, or the
environment changes the state. -/
inductive Turn (σ ε : Type) where
  | call (p : Prog σ ε Unit)
  | outside (f : σ → σ)

namespace Turn

def after : Turn σ ε → List σ → List σ
  | .call p, h => p.after h
  | .outside f, s :: t => f s :: s :: t
  | .outside _, [] => []

def inTurn (turns : List (Turn σ ε)) (h : List σ) : List σ := turns.foldl (fun h x => x.after h) h

/-- The program may be started, or the change may happen, at any time. -/
def Allowed (env : σ → σ → Prop) (calls : Nat → Prog σ ε Unit → Prop) : Turn σ ε → Prop
  | .call p => ∀ i, calls i p
  | .outside f => ∀ s, env s (f s)

end Turn

theorem PoolRun.outside {f : σ → σ} (hPool : PoolRun init env calls crash h ps)
    (hf : ∀ s, env s (f s)) :
    PoolRun init env calls crash (Turn.after (.outside f : Turn σ ε) h) ps := by
  cases h with
  | nil => exact hPool
  | cons s t => exact hPool.env (hf s)

/-- One turn after the other is one of the interleavings. -/
theorem PoolRun.inTurn {s : σ} (hInit : init s) {turns : List (Turn σ ε)}
    (hTurns : ∀ x ∈ turns, x.Allowed env calls) :
    ∃ ps, PoolRun init env calls crash (Turn.inTurn turns [s]) ps := by
  -- the places from `n` on are free, so that every program gets one of its own
  suffices hAll : ∀ (turns : List (Turn σ ε)) (h : List σ) (ps : Procs σ ε) (n : Nat),
      (∀ x ∈ turns, x.Allowed env calls) → (∀ j, n ≤ j → ps j = none) →
      PoolRun init env calls crash h ps →
      ∃ ps', PoolRun init env calls crash (Turn.inTurn turns h) ps' from
    hAll turns [s] _ 0 hTurns (fun _ _ => rfl) (.start hInit)
  intro turns
  induction turns with
  | nil => exact fun h ps n _ _ hRun => ⟨ps, hRun⟩
  | cons x rest ih =>
    intro h ps n hTurns hFree hRun
    have hRest : ∀ y ∈ rest, y.Allowed env calls := fun y hy => hTurns y (mem_cons_of_mem _ hy)
    have hThis := hTurns x mem_cons_self
    cases x with
    | call p =>
      obtain ⟨ps', hNext, hFree'⟩ := hRun.call n hFree (hThis n)
      exact ih _ ps' (n + 1) hRest (fun j hj => hFree' j hj) hNext
    | outside f => exact ih _ ps n hRest hFree (hRun.outside hThis)

end EternalAI.Lib
